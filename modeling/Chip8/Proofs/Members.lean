import Chip8.Json.Fields
import Mathlib.Data.List.Count
import Mathlib.Data.List.Nodup
import Mathlib.Data.List.Perm.Basic
import Mathlib.Data.Option.Basic

/-!
# Fields of objects and arrays

What `Json.fields?` makes of a value, said of the members of an object as a collection: in which
order they come, and which of them nobody knows, makes no difference.  A value that assigns a field
something has it read, or is not read at all.
-/

namespace Chip8

namespace Json

variable {names : List String} {fields : List (String × Json)}
variable {members : List (Option String × Json)} {items : List Json}
variable {j value : Json} {values : List (Option Json)} {name : String}

/-! ## Members by their keys -/

theorem member?_eq_none (h : some name ∉ members.map Prod.fst) :
    member? members name = none := by
  have hfind : members.find? (fun member => member.1 == some name) = none := by
    rw [List.find?_eq_none]
    intro member hmember heq
    exact h (List.mem_map.mpr ⟨member, hmember, eq_of_beq heq⟩)
  rw [member?, hfind]
  rfl

/-- A member whose key comes only once is the one that is found. -/
theorem member?_eq_some
    (honce : (members.map Prod.fst).count (some name) ≤ 1) (h : (some name, value) ∈ members) :
    member? members name = some value := by
  induction members with
  | nil => cases h
  | cons member members ih =>
      rw [List.map_cons, List.count_cons] at honce
      rcases List.mem_cons.mp h with rfl | h
      · exact congrArg (Option.map Prod.snd)
          (List.find?_cons_of_pos (beq_self_eq_true (some name)))
      · have hpos : 0 < (members.map Prod.fst).count (some name) :=
          List.count_pos_iff.mpr (List.mem_map.mpr ⟨_, h, rfl⟩)
        have hne : (member.1 == some name) = false := by
          rw [← Bool.not_eq_true]
          intro heq
          rw [if_pos heq] at honce
          omega
        rw [member?, List.find?_cons_of_neg (by rw [hne]; decide)]
        exact ih (by omega) h

/-! ## Objects -/

/-- An object is read if its keys are texts and it has none of the fields twice. -/
theorem fields?_object
    (hkeys : none ∉ members.map Prod.fst)
    (honce : ∀ name ∈ names, (members.map Prod.fst).count (some name) ≤ 1) :
    (object members).fields? names = some (names.map (member? members)) := by
  rw [fields?, if_neg]
  simp only [Bool.or_eq_true, List.contains_eq_mem, List.any_eq_true, decide_eq_true_eq, not_or,
    not_exists, not_and]
  exact ⟨hkeys, fun name hname => Nat.not_lt.mpr (honce name hname)⟩

/-- An object that is read has none of the fields twice. -/
theorem fields?_object_cases
    (h : (object members).fields? names = some values) :
    (∀ name ∈ names, (members.map Prod.fst).count (some name) ≤ 1) ∧
      values = names.map (member? members) := by
  rw [fields?] at h
  split at h
  · cases h
  · next hkeys =>
      simp only [Bool.or_eq_true, List.any_eq_true, decide_eq_true_eq, not_or,
        not_exists, not_and] at hkeys
      exact ⟨fun name hname => Nat.not_lt.mp (hkeys.2 name hname), (Option.some.inj h).symm⟩

theorem fields?_eq_none_of_repeated
    (hname : name ∈ names) (h : 1 < (members.map Prod.fst).count (some name)) :
    (object members).fields? names = none := by
  rw [Option.eq_none_iff_forall_ne_some]
  intro values hvalues
  exact absurd ((fields?_object_cases hvalues).1 name hname) (Nat.not_le.mpr h)

/-! ## Arrays -/

theorem fields?_array (h : items.length ≤ names.length) :
    (array items).fields? names = some ((List.range names.length).map (items[·]?)) :=
  if_neg (Nat.not_lt.mpr h)

theorem fields?_eq_none_of_tooLong (h : names.length < items.length) :
    (array items).fields? names = none :=
  if_pos h

/-- An array with a value for every field is read as those values. -/
theorem fields?_array_full (h : items.length = names.length) :
    (array items).fields? names = some (items.map some) := by
  rw [fields?_array (Nat.le_of_eq h), ← h]
  refine congrArg some (List.ext_getElem (by simp) fun i hi _ => ?_)
  rw [List.length_map, List.length_range] at hi
  rw [List.getElem_map, List.getElem_map, List.getElem_range, List.getElem?_eq_getElem hi]

/-! ## Given members -/

/-- A value that is neither an array nor an object. -/
def isScalar : Json → Bool
  | array _ => false
  | object _ => false
  | _ => true

/-- The members give the fields their values and no other one of the names a value.  They come in
any order, among any others that are scalars. -/
def Gives (names : List String) (fields : List (String × Json))
    (members : List (Option String × Json)) : Prop :=
  ∃ others : List (String × Json),
    (∀ other ∈ others, other.1 ∉ names ∧ other.2.isScalar = true) ∧
      members.Perm ((fields ++ others).map fun (key, value) => (some key, value))

theorem Gives.refl (names : List String) (fields : List (String × Json)) :
    Gives names fields (fields.map fun (key, value) => (some key, value)) :=
  ⟨[], nofun, by rw [List.append_nil]⟩

theorem Gives.none_not_mem (h : Gives names fields members) : none ∉ members.map Prod.fst := by
  obtain ⟨others, -, hperm⟩ := h
  rw [(hperm.map Prod.fst).mem_iff, List.map_map]
  intro hmem
  obtain ⟨_, -, hkey⟩ := List.mem_map.mp hmem
  cases hkey

/-- A member that gives a field its value is one of the fields. -/
theorem Gives.mem_iff (h : Gives names fields members) (hname : name ∈ names) :
    (some name, value) ∈ members ↔ (name, value) ∈ fields := by
  obtain ⟨others, hothers, hperm⟩ := h
  rw [hperm.mem_iff, List.mem_map]
  constructor
  · rintro ⟨field, hfield, heq⟩
    obtain ⟨hkey, rfl⟩ := Prod.mk.inj heq
    obtain rfl := Option.some.inj hkey
    exact (List.mem_append.mp hfield).resolve_right fun hother => (hothers _ hother).1 hname
  · exact fun hfield => ⟨_, List.mem_append_left _ hfield, rfl⟩

/-- A field is given as often as it comes among the fields. -/
theorem Gives.count_eq (h : Gives names fields members) (hname : name ∈ names) :
    (members.map Prod.fst).count (some name) = (fields.map Prod.fst).count name := by
  obtain ⟨others, hothers, hperm⟩ := h
  have hkeys := (hperm.map Prod.fst).count_eq (some name)
  have hfields : ((fields ++ others).map fun (key, value) => (some key, value)).map Prod.fst =
      (fields.map Prod.fst ++ others.map Prod.fst).map some := by
    rw [← List.map_append, List.map_map, List.map_map]
    rfl
  have hother : (others.map Prod.fst).count name = 0 := by
    rw [List.count_eq_zero, List.mem_map]
    rintro ⟨other, hother, rfl⟩
    exact (hothers other hother).1 hname
  rw [hkeys, hfields, List.count_map_of_injective _ _ (Option.some_injective _),
    List.count_append, hother, Nat.add_zero]

theorem Gives.count_le_one
    (h : Gives names fields members) (hnodup : (fields.map Prod.fst).Nodup)
    (hname : name ∈ names) :
    (members.map Prod.fst).count (some name) ≤ 1 := by
  rw [h.count_eq hname]
  exact List.nodup_iff_count_le_one.mp hnodup name

theorem Gives.member?_eq_some
    (h : Gives names fields members) (hnodup : (fields.map Prod.fst).Nodup)
    (hname : name ∈ names) (hfield : (name, value) ∈ fields) :
    member? members name = some value :=
  Json.member?_eq_some (h.count_le_one hnodup hname) ((h.mem_iff hname).mpr hfield)

theorem Gives.member?_eq_none
    (h : Gives names fields members) (hname : name ∈ names)
    (hfields : ∀ value, (name, value) ∉ fields) :
    member? members name = none := by
  refine Json.member?_eq_none fun hmem => ?_
  obtain ⟨⟨_, value⟩, hmember, rfl⟩ := List.mem_map.mp hmem
  exact hfields value ((h.mem_iff hname).mp hmember)

/-- When some of the fields are given, in whatever order and among whatever others, the values of
those fields are read. -/
theorem Gives.fields?_of_filter
    (given : String → Bool) (hnodup : (fields.map Prod.fst).Nodup)
    (h : Gives (fields.map Prod.fst) (fields.filter (given ·.1)) members) :
    (object members).fields? (fields.map Prod.fst) =
      some (fields.map fun (name, value) => if given name then some value else none) := by
  have hfilter : ((fields.filter (given ·.1)).map Prod.fst).Nodup :=
    hnodup.sublist ((List.filter_sublist).map Prod.fst)
  rw [fields?_object h.none_not_mem fun name hname => h.count_le_one hfilter hname, List.map_map]
  refine congrArg some (List.map_congr_left fun (name, value) hfield => ?_)
  have hname : name ∈ fields.map Prod.fst := List.mem_map.mpr ⟨_, hfield, rfl⟩
  change member? members name = if given name then some value else none
  split
  next hgiven =>
    exact h.member?_eq_some hfilter hname (List.mem_filter.mpr ⟨hfield, hgiven⟩)
  next hgiven =>
    exact h.member?_eq_none hname fun _ hmem => hgiven (List.mem_filter.mp hmem).2

/-- When all fields are given, all their values are read. -/
theorem Gives.fields?_of_all
    (hnodup : (fields.map Prod.fst).Nodup) (h : Gives (fields.map Prod.fst) fields members) :
    (object members).fields? (fields.map Prod.fst) = some (fields.map (some ∘ Prod.snd)) := by
  have hgives : Gives (fields.map Prod.fst) (fields.filter fun _ => true) members := by
    rwa [List.filter_true]
  exact Gives.fields?_of_filter (fun _ => true) hnodup hgives

/-- Without repetition, an element is among the first if its place is. -/
theorem getElem_mem_take_iff
    {α : Type} {l : List α} {i n : Nat} (hl : l.Nodup) (hi : i < l.length) :
    l[i] ∈ l.take n ↔ i < n := by
  rw [List.mem_take_iff_getElem]
  constructor
  · rintro ⟨j, hj, heq⟩
    rw [← hl.getElem_inj_iff.mp heq]
    exact (Nat.lt_min.mp hj).1
  · exact fun hn => ⟨i, Nat.lt_min.mpr ⟨hn, hi⟩, rfl⟩

/-- A list of the first values is read as the values of the fields with the first names. -/
theorem fields?_take
    (n : Nat) (hnodup : (fields.map Prod.fst).Nodup) :
    (array ((fields.map Prod.snd).take n)).fields? (fields.map Prod.fst) =
      some (fields.map fun (name, value) =>
        if name ∈ (fields.map Prod.fst).take n then some value else none) := by
  rw [fields?_array (by rw [List.length_take, List.length_map, List.length_map]; omega)]
  refine congrArg some (List.ext_getElem (by simp) fun i hi hfields => ?_)
  rw [List.length_map] at hfields
  have hname : i < (fields.map Prod.fst).length := by rwa [List.length_map]
  have hmem := getElem_mem_take_iff (n := n) hnodup hname
  rw [List.getElem_map] at hmem
  simp only [List.getElem_map, List.getElem_range, List.getElem?_take, List.getElem?_map,
    List.getElem?_eq_getElem hfields, Option.map_some, hmem]

/-! ## Values of a field -/

/-- The value gives the field at a place something: in a member with its name, or as the item at its
place. -/
inductive Assigns (names : List String) (i : Nat) (value : Json) : Json → Prop
  | member {name : String} {members : List (Option String × Json)} :
      names[i]? = some name → (some name, value) ∈ members → Assigns names i value (object members)
  | item {items : List Json} : items[i]? = some value → Assigns names i value (array items)

/-- What a field is given is read, if the value is read at all. -/
theorem Assigns.getElem?_fields?
    {i : Nat} (h : Assigns names i value j) (hvalues : j.fields? names = some values) :
    values[i]? = some (some value) := by
  cases h with
  | member hname hmember =>
      obtain ⟨honce, rfl⟩ := fields?_object_cases hvalues
      rw [List.getElem?_map, hname, Option.map_some,
        member?_eq_some (honce _ (List.mem_of_getElem? hname)) hmember]
  | @item items hitem =>
      by_cases hlong : names.length < items.length
      · rw [fields?_eq_none_of_tooLong hlong] at hvalues
        cases hvalues
      · rw [fields?_array (Nat.not_lt.mp hlong)] at hvalues
        obtain rfl := Option.some.inj hvalues
        have hi : i < names.length :=
          Nat.lt_of_lt_of_le (List.getElem?_eq_some_iff.mp hitem).1 (Nat.not_lt.mp hlong)
        rw [List.getElem?_map, List.getElem?_range hi, Option.map_some, hitem]

/-! ## Numbers in all fields -/

section Naturals

variable {types : List (String × Nat)}

theorem below?_ofNat {bound n : Nat} (h : n < bound) : (ofNat n).below? bound = some n :=
  if_pos h

/-- A value without a number below the bound is none of a field with this bound. -/
theorem below?_eq_none {bound : Nat} (h : ∀ n < bound, value ≠ ofNat n) :
    value.below? bound = none := by
  rw [Option.eq_none_iff_forall_ne_some]
  intro n hn
  cases value with
  | number value =>
      cases value with
      | none => cases hn
      | some m =>
          rw [below?] at hn
          split at hn
          · next hm => exact h m hm rfl
          · cases hn
  | _ => cases hn

/-- Numbers below their bounds are read as they are. -/
theorem naturals?_of_fits
    {ns : List Nat} (hfields : j.fields? (types.map Prod.fst) = some (ns.map (some ∘ ofNat)))
    (hfits : List.Forall₂ (fun n type => n < type.2) ns types) :
    j.naturals? types = some ns := by
  rw [naturals?, hfields]
  change (((ns.map (some ∘ ofNat)).zip (types.map Prod.snd)).mapM _) = _
  -- From here on the value plays no part, and the induction is on how the numbers fit.
  clear hfields
  induction hfits with
  | nil => rfl
  | cons hfit _ ih =>
      rw [List.map_cons, List.map_cons, List.zip_cons_cons, List.mapM_cons, ih]
      change ((ofNat _).below? _).bind _ = _
      rw [below?_ofNat hfit]
      rfl

/-- One failure is the end of a reading of many. -/
theorem mapM_eq_none {α β : Type} {f : α → Option β} {l : List α} {a : α}
    (ha : a ∈ l) (hfails : f a = none) :
    l.mapM f = none := by
  obtain ⟨before, after, rfl⟩ := List.append_of_mem ha
  rw [List.mapM_append, List.mapM_cons, hfails]
  cases before.mapM f <;> rfl

/-- A field without a number below its bound is the end of the reading. -/
theorem naturals?_eq_none
    {i : Nat} {name : String} {bound : Nat} {given : Option Json}
    (hfield : types[i]? = some (name, bound))
    (hvalues : j.fields? (types.map Prod.fst) = some values) (hgiven : values[i]? = some given)
    (hfails : given.bind (below? bound) = none) :
    j.naturals? types = none := by
  have hbound : (types.map Prod.snd)[i]? = some bound := by
    rw [List.getElem?_map, hfield]
    rfl
  have hmem : (given, bound) ∈ values.zip (types.map Prod.snd) :=
    List.mem_of_getElem? (List.getElem?_zip_eq_some.mpr ⟨hgiven, hbound⟩)
  rw [naturals?, hvalues]
  exact mapM_eq_none hmem hfails

/-- The value does not give every field one number of its type: a field is missing or comes twice,
there are too few or too many items, or the value of a field is not a number below its bound. -/
inductive Misfit (types : List (String × Nat)) : Json → Prop
  | missing {name : String} {bound : Nat} {members : List (Option String × Json)} :
      (name, bound) ∈ types → some name ∉ members.map Prod.fst → Misfit types (object members)
  | repeated {name : String} {bound : Nat} {members : List (Option String × Json)} :
      (name, bound) ∈ types → 1 < (members.map Prod.fst).count (some name) →
      Misfit types (object members)
  | tooShort {items : List Json} : items.length < types.length → Misfit types (array items)
  | tooLong {items : List Json} : types.length < items.length → Misfit types (array items)
  | outside {i : Nat} {name : String} {bound : Nat} {value j : Json} :
      types[i]? = some (name, bound) → Assigns (types.map Prod.fst) i value j →
      (∀ n < bound, value ≠ ofNat n) → Misfit types j

/-- A value that misfits the fields is not read. -/
theorem naturals?_of_misfit (h : Misfit types j) :
    j.naturals? types = none := by
  cases hvalues : j.fields? (types.map Prod.fst) with
  | none => rw [naturals?, hvalues]; rfl
  | some values =>
      cases h with
      | missing htype hmissing =>
          obtain ⟨i, hi⟩ := List.mem_iff_getElem?.mp htype
          obtain ⟨-, rfl⟩ := fields?_object_cases hvalues
          refine naturals?_eq_none hi hvalues ?_ (rfl : (none : Option Json).bind _ = none)
          rw [List.getElem?_map, List.getElem?_map, hi, ← member?_eq_none hmissing]
          rfl
      | repeated htype hrepeated =>
          rw [fields?_eq_none_of_repeated (List.mem_map.mpr ⟨_, htype, rfl⟩) hrepeated] at hvalues
          cases hvalues
      | @tooShort items hshort =>
          have hlength : items.length < (types.map Prod.fst).length := by rwa [List.length_map]
          rw [fields?_array (Nat.le_of_lt hlength)] at hvalues
          obtain rfl := Option.some.inj hvalues
          refine naturals?_eq_none (List.getElem?_eq_getElem hshort)
            (fields?_array (Nat.le_of_lt hlength)) ?_ (rfl : (none : Option Json).bind _ = none)
          rw [List.getElem?_map, List.getElem?_range hlength, Option.map_some,
            List.getElem?_eq_none (Nat.le_refl _)]
      | tooLong hlong =>
          rw [fields?_eq_none_of_tooLong (by rwa [List.length_map])] at hvalues
          cases hvalues
      | outside hfield hassigns houtside =>
          exact naturals?_eq_none hfield hvalues (hassigns.getElem?_fields? hvalues)
            (below?_eq_none houtside)

end Naturals

end Json

end Chip8
