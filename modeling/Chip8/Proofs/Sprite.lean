import Chip8.Screen.Sprite
import Mathlib.Algebra.Ring.Parity
import Mathlib.Data.List.Nodup

/-!
# Sprites pixel by pixel

Drawing switches over one lit pixel of a sprite after the other.  What comes of it can be said of
each pixel of the screen on its own: it is switched over as often as a lit pixel of the sprite falls
on it.  On a sprite of at most 32 rows no two lit pixels fall on one place, so there drawing is an
exclusive or with the sprite, and a collision is a pixel that was on and is off.
-/

namespace Chip8

theorem decide_odd_add
    (k n : Nat) :
    decide (Odd (k + n)) = (decide (Odd k) ^^ decide (Odd n)) := by
  by_cases hk : Odd k <;> by_cases hn : Odd n <;>
    simp [Nat.odd_add, ← Nat.not_odd_iff_even, hk, hn]

namespace Screen

/-- How far a coordinate lies behind the corner of a sprite, on a line of `size` places whose ends
meet. -/
def distance (size : Nat) (corner coordinate : UInt8) : Nat :=
  (((coordinate.toNat : Int) - corner.toNat) % size).toNat

/-- The places of the pixels with given coordinates. -/
def places (coordinates : List (UInt8 × UInt8)) : List (Fin 2048) :=
  coordinates.map fun p => index p.1 p.2

variable (s : Screen)

/-! ## Switching pixels over -/

theorem pixel_eq_of_index_eq
    {x y x' y' : UInt8} (h : index x y = index x' y') :
    s.pixel x y = s.pixel x' y' := by
  simp only [pixel, h]

/-- A pixel ends up switched over if it was switched over an odd number of times. -/
theorem pixel_flipAll
    (coordinates : List (UInt8 × UInt8)) (x y : UInt8) :
    (s.flipAll coordinates).2.pixel x y =
      (s.pixel x y ^^ decide (Odd ((places coordinates).count (index x y)))) := by
  induction coordinates generalizing s with
  | nil => simp [flipAll, places]
  | cons p rest ih =>
      have hcons : (s.flipAll (p :: rest)).2 = ((s.flip p.1 p.2).flipAll rest).2 := rfl
      have hplaces : places (p :: rest) = index p.1 p.2 :: places rest := rfl
      rw [hcons, ih, pixel_flip, hplaces]
      by_cases hindex : index p.1 p.2 = index x y
      · rw [if_pos hindex, hindex, List.count_cons_self]
        simp only [Nat.odd_add_one, decide_not, Bool.not_xor, Bool.xor_not]
      · rw [if_neg hindex, List.count_cons_of_ne hindex]

/-- However high a sprite is, drawing switches each pixel over as often as a lit pixel of the sprite
falls on it. -/
theorem pixel_draw_eq_xor_odd
    (x y : UInt8) (sprite : List UInt8) (cx cy : UInt8) :
    (s.draw x y sprite).2.pixel cx cy =
      (s.pixel cx cy ^^
        decide (Odd ((places (Sprite.litPixels x y sprite)).count (index cx cy)))) :=
  s.pixel_flipAll (Sprite.litPixels x y sprite) cx cy

/-- Where no place occurs twice, there is a collision exactly if one of the pixels was on. -/
theorem flipAll_collision_iff
    {coordinates : List (UInt8 × UInt8)} (hnodup : (places coordinates).Nodup) :
    (s.flipAll coordinates).1 = true ↔
      ∃ x y, index x y ∈ places coordinates ∧ s.pixel x y = true := by
  induction coordinates generalizing s with
  | nil => simp [flipAll, places]
  | cons p rest ih =>
      have hcons : (s.flipAll (p :: rest)).1 =
          (s.pixel p.1 p.2 || ((s.flip p.1 p.2).flipAll rest).1) := rfl
      have hplaces : places (p :: rest) = index p.1 p.2 :: places rest := rfl
      rw [hplaces, List.nodup_cons] at hnodup
      rw [hcons, Bool.or_eq_true, ih _ hnodup.2, hplaces]
      constructor
      · rintro (hpixel | ⟨x, y, hmem, hpixel⟩)
        · exact ⟨p.1, p.2, List.mem_cons_self, hpixel⟩
        · have hne : index p.1 p.2 ≠ index x y := fun h => hnodup.1 (h ▸ hmem)
          rw [pixel_flip, if_neg hne] at hpixel
          exact ⟨x, y, List.mem_cons_of_mem _ hmem, hpixel⟩
      · rintro ⟨x, y, hmem, hpixel⟩
        rcases List.mem_cons.mp hmem with hindex | hmem
        · exact .inl (s.pixel_eq_of_index_eq hindex ▸ hpixel)
        · have hne : index p.1 p.2 ≠ index x y := fun h => hnodup.1 (h ▸ hmem)
          refine .inr ⟨x, y, hmem, ?_⟩
          rw [pixel_flip, if_neg hne]
          exact hpixel

/-! ## Distances -/

/-- Of the eight columns at a corner, only the one at the right distance has a given pixel, and only
in the corner's row. -/
theorem index_add_eq_index_iff
    (x y cx cy : UInt8) {column : Nat} (hcolumn : column < 8) :
    index (x + UInt8.ofNat column) y = index cx cy ↔
      column = distance 64 x cx ∧ distance 32 y cy = 0 := by
  rw [index_eq_index_iff, UInt8.toNat_add, UInt8.toNat_ofNat']
  unfold distance
  omega

/-- Going down by one row brings a coordinate nearer by one, all the way round. -/
theorem distance_add_one
    (y cy : UInt8) :
    distance 32 (y + 1) cy = if distance 32 y cy = 0 then 31 else distance 32 y cy - 1 := by
  have hy := UInt8.toNat_add y 1
  rw [UInt8.toNat_one] at hy
  unfold distance
  rw [hy]
  split
  · omega
  · omega

end Screen

namespace Sprite

open Screen

/-- Whether a sprite has a lit pixel in a column and a row of its own. -/
def isLit (sprite : List UInt8) (column row : Nat) : Bool :=
  decide (column < 8) && sprite[row]?.any fun bits => bits.toNat.testBit (7 - column)

/-- There are no lit pixels below a sprite. -/
theorem isLit_of_length_le
    {sprite : List UInt8} {row : Nat} (h : sprite.length ≤ row) (column : Nat) :
    isLit sprite column row = false := by
  simp [isLit, List.getElem?_eq_none h]

theorem isLit_cons_zero
    (bits : UInt8) (rows : List UInt8) (column : Nat) :
    isLit (bits :: rows) column 0 = isLit [bits] column 0 :=
  rfl

theorem isLit_cons_succ
    (bits : UInt8) (rows : List UInt8) (column row : Nat) :
    isLit (bits :: rows) column (row + 1) = isLit rows column row :=
  rfl

/-! ## The places of a sprite -/

theorem places_row
    (x y bits : UInt8) :
    places ((litColumns x bits).map fun column => (column, y)) =
      ((List.range 8).filter fun column => bits.toNat.testBit (7 - column)).map fun column =>
        index (x + UInt8.ofNat column) y := by
  simp only [places, litColumns, List.map_map]
  rfl

theorem places_cons
    (x y bits : UInt8) (rows : List UInt8) :
    places (litPixels x y (bits :: rows)) =
      places ((litColumns x bits).map fun column => (column, y)) ++
        places (litPixels x (y + 1) rows) := by
  rw [litPixels, places, List.map_append]
  rfl

theorem mem_places_row
    (x y cx cy bits : UInt8) :
    index cx cy ∈ places ((litColumns x bits).map fun column => (column, y)) ↔
      isLit [bits] (distance 64 x cx) (distance 32 y cy) = true := by
  rw [places_row]
  simp only [List.mem_map, List.mem_filter, List.mem_range]
  constructor
  · rintro ⟨column, ⟨hcolumn, hbit⟩, hindex⟩
    obtain ⟨rfl, hrow⟩ := (index_add_eq_index_iff x y cx cy hcolumn).mp hindex
    simp [isLit, hrow, hcolumn, hbit]
  · intro hlit
    have hrow : distance 32 y cy = 0 := by
      by_contra hne
      have hbelow : [bits].length ≤ distance 32 y cy := Nat.pos_of_ne_zero hne
      rw [isLit_of_length_le hbelow] at hlit
      cases hlit
    rw [hrow] at hlit
    obtain ⟨hcolumn, hbit⟩ : distance 64 x cx < 8 ∧
        bits.toNat.testBit (7 - distance 64 x cx) = true := by
      simpa [isLit] using hlit
    exact ⟨_, ⟨hcolumn, hbit⟩, (index_add_eq_index_iff x y cx cy hcolumn).mpr ⟨rfl, hrow⟩⟩

theorem nodup_places_row
    (x y bits : UInt8) :
    (places ((litColumns x bits).map fun column => (column, y))).Nodup := by
  rw [places_row]
  apply List.Nodup.map_on
  · intro first hfirst second hsecond hindex
    rw [List.mem_filter, List.mem_range] at hfirst hsecond
    rw [index_eq_index_iff, UInt8.toNat_add, UInt8.toNat_add, UInt8.toNat_ofNat',
      UInt8.toNat_ofNat'] at hindex
    omega
  · exact List.nodup_range.filter _

/-- A lit pixel of a sprite falls on a place exactly if there is one at the place's distance from
the corner.  On more than 32 rows the sprite would reach some places again from above. -/
theorem mem_places_litPixels
    (x y cx cy : UInt8) {sprite : List UInt8} (hlength : sprite.length ≤ 32) :
    index cx cy ∈ places (litPixels x y sprite) ↔
      isLit sprite (distance 64 x cx) (distance 32 y cy) = true := by
  induction sprite generalizing y with
  | nil => simp [litPixels, places, isLit]
  | cons bits rows ih =>
      rw [List.length_cons] at hlength
      rw [places_cons, List.mem_append, mem_places_row, ih (y + 1) (by omega), distance_add_one]
      cases hrow : distance 32 y cy with
      | zero =>
          -- the rows below would have to go all the way round
          have hbelow : isLit rows (distance 64 x cx) 31 = false := isLit_of_length_le (by omega) _
          rw [if_pos rfl, hbelow, isLit_cons_zero bits rows]
          simp
      | succ row =>
          have habove : isLit [bits] (distance 64 x cx) (row + 1) = false :=
            isLit_of_length_le (Nat.le_add_left 1 row) _
          rw [if_neg (Nat.succ_ne_zero row), habove, isLit_cons_succ, Nat.add_sub_cancel]
          simp

/-- No two lit pixels of a sprite of at most 32 rows fall on one place. -/
theorem nodup_places_litPixels
    (x y : UInt8) {sprite : List UInt8} (hlength : sprite.length ≤ 32) :
    (places (litPixels x y sprite)).Nodup := by
  induction sprite generalizing y with
  | nil => exact List.nodup_nil
  | cons bits rows ih =>
      rw [List.length_cons] at hlength
      rw [places_cons, List.nodup_append']
      refine ⟨nodup_places_row x y bits, ih (y + 1) (by omega), ?_⟩
      intro place hfirst hrest
      rw [places_row, List.mem_map] at hfirst
      obtain ⟨column, -, rfl⟩ := hfirst
      have hround : distance 32 y y = 0 := by simp [distance]
      rw [mem_places_litPixels x (y + 1) _ _ (by omega), distance_add_one, if_pos hround,
        isLit_of_length_le (by omega)] at hrest
      cases hrest

end Sprite

namespace Screen

open Sprite

variable (s : Screen)

/-- Drawing combines each pixel with the sprite's pixel above it by exclusive or. -/
theorem pixel_draw
    (x y cx cy : UInt8) {sprite : List UInt8} (hlength : sprite.length ≤ 32) :
    (s.draw x y sprite).2.pixel cx cy =
      (s.pixel cx cy ^^ isLit sprite (distance 64 x cx) (distance 32 y cy)) := by
  have hmem := mem_places_litPixels x y cx cy hlength
  rw [pixel_draw_eq_xor_odd, (nodup_places_litPixels x y hlength).count]
  congr 1
  by_cases hlit : isLit sprite (distance 64 x cx) (distance 32 y cy) = true
  · rw [if_pos (hmem.mpr hlit), hlit]
    decide
  · rw [if_neg (mt hmem.mp hlit), Bool.not_eq_true _ |>.mp hlit]
    decide

/-- There is a collision exactly if some pixel is put out. -/
theorem draw_collision_iff
    (x y : UInt8) {sprite : List UInt8} (hlength : sprite.length ≤ 32) :
    (s.draw x y sprite).1 = true ↔
      ∃ cx cy, s.pixel cx cy = true ∧ (s.draw x y sprite).2.pixel cx cy = false := by
  have hdraw : (s.draw x y sprite).1 = (s.flipAll (litPixels x y sprite)).1 := rfl
  rw [hdraw, s.flipAll_collision_iff (nodup_places_litPixels x y hlength)]
  constructor
  · rintro ⟨cx, cy, hmem, hpixel⟩
    refine ⟨cx, cy, hpixel, ?_⟩
    rw [s.pixel_draw x y cx cy hlength, hpixel, (mem_places_litPixels x y cx cy hlength).mp hmem]
    rfl
  · rintro ⟨cx, cy, hpixel, hout⟩
    refine ⟨cx, cy, (mem_places_litPixels x y cx cy hlength).mpr ?_, hpixel⟩
    rw [s.pixel_draw x y cx cy hlength, hpixel] at hout
    simpa using hout

end Screen

end Chip8
