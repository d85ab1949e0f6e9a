import Whiteboard.Canvas.Remap
import Whiteboard.Proofs.Ids.Numbered

/-!
# Names given in turn

Elements give up the ids they were made with and get others, one after the other. What an element gets is the id it
wants, or the first variant of it that nobody has: `unique_notMem` says that it is always free, and `unique_congr` that it
depends on nothing but which variants are taken.

As long as no variant of a wanted id is an id that elements are made with, the ids that are given do not depend on those
ids (`grant`, `Knows.renameAll`).
-/

namespace Whiteboard.Remap

/-! ## Variants of a name -/

/-- The variants of a name in the order in which they are tried: the name itself comes first. -/
def variant (name : String) : Nat → String
  | 0 => name
  | k + 1 => name ++ "_" ++ toString (k + 2)

/-- One name is the other, or a numbered variant of it. -/
def IsVariant (name id : String) : Prop := ∃ k, id = variant name k

/-- A name is a variant of itself. -/
theorem isVariant_self (name : String) : IsVariant name name := ⟨0, rfl⟩

/-- A variant begins with the name. -/
theorem prefix_variant (name : String) (k : Nat) : name.toList <+: (variant name k).toList := by
  cases k with
  | zero => exact List.prefix_refl _
  | succ k =>
    rw [variant, String.toList_append, String.toList_append, List.append_assoc]
    exact List.prefix_append _ _

/-- A number at the end brings in nothing but digits. -/
theorem isIdChar_of_isVariant {name id : String} (hname : ∀ c ∈ name.toList, isIdChar c = true) (h : IsVariant name id) :
    ∀ c ∈ id.toList, isIdChar c = true := by
  obtain ⟨k, rfl⟩ := h
  cases k with
  | zero => exact hname
  | succ k =>
    intro c hc
    simp only [variant, String.toList_append, List.mem_append] at hc
    rcases hc with (hc | hc) | hc
    · exact hname c hc
    · exact List.all_eq_true.1 (by decide : "_".toList.all isIdChar = true) c hc
    · rw [Nat.toString_eq_repr, Nat.toList_repr] at hc
      have hdigit := Nat.isDigit_of_mem_toDigits (by decide) (by decide) hc
      simp [isIdChar, Char.isAlphanum, hdigit]

/-- No two variants of a name are equal. -/
theorem variant_injective (name : String) : Function.Injective (variant name) := by
  intro a b h
  cases a with
  | zero =>
    cases b with
    | zero => rfl
    | succ b => exact absurd h (Ids.ne_renamed name (b + 2))
  | succ a =>
    cases b with
    | zero => exact absurd h.symm (Ids.ne_renamed name (a + 2))
    | succ b =>
      have := Ids.renamed_injective name h
      omega

namespace Renaming

/-! ## The first free variant -/

/-- The candidates are the name and its first variants. -/
theorem candidates_eq (used : List String) (wanted : String) :
    candidates used wanted = (List.range (used.length + 1)).map (variant wanted) := by
  rw [candidates, List.range_succ_eq_map, List.map_cons, List.map_map]
  rfl

/-- The name that is given is the first variant that is free. -/
theorem unique_spec (used : List String) (wanted : String) :
    ∃ k, unique used wanted = variant wanted k ∧ variant wanted k ∉ used ∧ ∀ j < k, variant wanted j ∈ used := by
  obtain ⟨k, hfound, hfree, hbefore⟩ := Ids.exists_find?_range (variant_injective wanted) used
  exact ⟨k, by rw [unique, candidates_eq, hfound, Option.getD_some], hfree, hbefore⟩

/-- A unique id is a variant of the wanted one. -/
theorem isVariant_unique (used : List String) (wanted : String) : IsVariant wanted (unique used wanted) := by
  obtain ⟨k, hk, -⟩ := unique_spec used wanted
  exact ⟨k, hk⟩

/-- The name that is given is free. -/
theorem unique_notMem (used : List String) (wanted : String) : unique used wanted ∉ used := by
  obtain ⟨k, hk, hfree, -⟩ := unique_spec used wanted
  rw [hk]
  exact hfree

/-- A name that is free is given as it is. -/
theorem unique_of_notMem {used : List String} {wanted : String} (h : wanted ∉ used) : unique used wanted = wanted := by
  obtain ⟨k, hk, -, hbefore⟩ := unique_spec used wanted
  cases k with
  | zero => exact hk
  | succ k => exact absurd (hbefore 0 (Nat.zero_lt_succ k)) h

/-- What is given depends on nothing but which variants are taken. -/
theorem unique_congr {used used' : List String} {wanted : String}
    (h : ∀ id, IsVariant wanted id → (id ∈ used ↔ id ∈ used')) : unique used wanted = unique used' wanted := by
  obtain ⟨k, hk, hfree, hbefore⟩ := unique_spec used wanted
  obtain ⟨k', hk', hfree', hbefore'⟩ := unique_spec used' wanted
  have heq : k = k' := by
    rcases Nat.lt_trichotomy k k' with hlt | heq | hgt
    · exact absurd ((h _ ⟨k, rfl⟩).2 (hbefore' k hlt)) hfree
    · exact heq
    · exact absurd ((h _ ⟨k', rfl⟩).1 (hbefore k' hgt)) hfree'
  rw [hk, hk', heq]

/-! ## Several names in turn -/

/-- The names that are given to those who want `wants`, in turn, where `given` are taken from the start. -/
def grant (given : List String) : List String → List String
  | [] => []
  | wanted :: wants => unique given wanted :: grant (unique given wanted :: given) wants

/-- Everyone gets a variant of what he wants. -/
theorem forall₂_isVariant_grant (given wants : List String) : List.Forall₂ IsVariant wants (grant given wants) := by
  induction wants generalizing given with
  | nil => exact .nil
  | cons wanted wants ih => exact .cons (isVariant_unique given wanted) (ih _)

/-- Whatever is granted is a variant of a wanted id. -/
theorem exists_isVariant_of_mem_grant {given wants : List String} {id : String} (h : id ∈ grant given wants) :
    ∃ wanted ∈ wants, IsVariant wanted id := by
  induction wants generalizing given with
  | nil => cases h
  | cons wanted wants ih =>
    rcases List.mem_cons.1 h with rfl | h
    · exact ⟨wanted, by simp, isVariant_unique given wanted⟩
    · obtain ⟨wanted', hmem, hvariant⟩ := ih h
      exact ⟨wanted', List.mem_cons_of_mem _ hmem, hvariant⟩

/-- Where all want something else, and nothing that is taken, all get what they want. -/
theorem grant_of_nodup {given wants : List String} (h : (given ++ wants).Nodup) : grant given wants = wants := by
  induction wants generalizing given with
  | nil => rfl
  | cons wanted wants ih =>
    have hperm : (given ++ wanted :: wants).Perm (wanted :: given ++ wants) := List.perm_middle
    have h := hperm.nodup_iff.1 h
    have hwanted : unique given wanted = wanted := unique_of_notMem fun hmem => by simp [hmem] at h
    rw [grant, hwanted, ih h]

/-- The names that are given are free and differ from one another. -/
theorem nodup_append_grant {given : List String} (h : given.Nodup) (wants : List String) :
    (given ++ grant given wants).Nodup := by
  induction wants generalizing given with
  | nil => simpa [grant] using h
  | cons wanted wants ih =>
    have hperm : (given ++ grant given (wanted :: wants)).Perm
        (unique given wanted :: given ++ grant (unique given wanted :: given) wants) := List.perm_middle
    exact hperm.nodup_iff.2 (ih (List.nodup_cons.2 ⟨unique_notMem given wanted, h⟩))

/-! ## Renaming -/

/-- Leaving out one id makes no difference to others. -/
theorem lookup_filter_ne {x y : String} (h : x ≠ y) (mapping : List (String × String)) :
    (mapping.filter (·.1 != y)).lookup x = mapping.lookup x := by
  induction mapping with
  | nil => rfl
  | cons m mapping ih =>
    obtain ⟨k, v⟩ := m
    by_cases hk : k = y
    · have hx : (x == k) = false := beq_false_of_ne (hk ▸ h)
      simp [hk, List.lookup_cons, hk ▸ hx, ih]
    · simp [hk, List.lookup_cons, ih]

/-- The new id of the element that is renamed; the others keep theirs. -/
theorem new?_rename (r : Renaming) (current wanted id : String) :
    (r.rename current wanted).new? id =
      if id = current then some (unique (r.used.filter (· != current)) wanted) else r.new? id := by
  by_cases h : id = current
  · simp [rename, new?, h]
  · have hne : (id == current) = false := beq_false_of_ne h
    simp [rename, new?, h, hne, List.lookup_cons, lookup_filter_ne]

/-- An element that nobody renames keeps what it has. -/
theorem new?_renameAll_of_notMem {wishes : List (String × String)} {id : String} (h : id ∉ wishes.map (·.1)) (r : Renaming) :
    (r.renameAll wishes).new? id = r.new? id := by
  induction wishes generalizing r with
  | nil => rfl
  | cons w wishes ih =>
    obtain ⟨hne, h⟩ := not_or.1 (List.mem_cons.not.1 h)
    change ((r.rename w.1 w.2).renameAll wishes).new? id = _
    rw [ih h, new?_rename, if_neg hne]

/-- An element that is renamed once gets a variant of what it wants. -/
theorem exists_new?_renameAll {wishes : List (String × String)} (hnodup : (wishes.map (·.1)).Nodup) {w : String × String}
    (hw : w ∈ wishes) (r : Renaming) : ∃ name, (r.renameAll wishes).new? w.1 = some name ∧ IsVariant w.2 name := by
  induction wishes generalizing r with
  | nil => cases hw
  | cons w' wishes ih =>
    obtain ⟨hnotin, hnodup⟩ := List.nodup_cons.1 hnodup
    rcases List.mem_cons.1 hw with rfl | hw
    · refine ⟨_, ?_, isVariant_unique (r.used.filter (· != w.1)) w.2⟩
      change ((r.rename w.1 w.2).renameAll wishes).new? w.1 = _
      rw [new?_renameAll_of_notMem hnotin, new?_rename, if_pos rfl]
    · exact ih hnodup hw _

/-- What has been renamed resolves to its new id. -/
theorem resolve_of_new? {r : Renaming} {id name : String} (h : r.new? id = some name) : r.resolve id = name := by
  rw [resolve, h, Option.getD_some]

theorem renameAll_append (r : Renaming) (wishes wishes' : List (String × String)) :
    r.renameAll (wishes ++ wishes') = (r.renameAll wishes).renameAll wishes' := List.foldl_append

variable {generated : String → Prop} {r : Renaming} {given : List String}

/-- The names in use are those that were given, ids that elements were made with aside. -/
def Knows (generated : String → Prop) (r : Renaming) (given : List String) : Prop :=
  ∀ id, ¬ generated id → (id ∈ r.used ↔ id ∈ given)

/-- Renaming one element whose id was made for it. -/
theorem Knows.rename (h : r.Knows generated given) {current wanted : String} (hcurrent : generated current)
    (hwanted : ∀ id, IsVariant wanted id → ¬ generated id) :
    unique (r.used.filter (· != current)) wanted = unique given wanted ∧
    (r.rename current wanted).Knows generated (unique given wanted :: given) := by
  have hfree : ∀ id, ¬ generated id → (id ∈ r.used.filter (· != current) ↔ id ∈ given) := by
    intro id hid
    have hne : id ≠ current := by
      rintro rfl
      exact hid hcurrent
    simp [hne, h id hid]
  have hunique : unique (r.used.filter (· != current)) wanted = unique given wanted :=
    unique_congr fun id hid => hfree id (hwanted id hid)
  refine ⟨hunique, fun id hid => ?_⟩
  change id ∈ unique (r.used.filter (· != current)) wanted :: r.used.filter (· != current) ↔ _
  rw [hunique, List.mem_cons, List.mem_cons, hfree id hid]

/-- Wishes that can be met without regard to the ids that elements were made with: each is that of another element, and
no variant of what is wanted is such an id. -/
structure AreApart (generated : String → Prop) (wishes : List (String × String)) : Prop where
  nodup : (wishes.map (·.1)).Nodup
  current : ∀ w ∈ wishes, generated w.1
  wanted : ∀ w ∈ wishes, ∀ id, IsVariant w.2 id → ¬ generated id

/-- Elements renamed in turn get the names that are granted to them. -/
theorem Knows.renameAll (h : r.Knows generated given) {wishes : List (String × String)} (hw : AreApart generated wishes) :
    (r.renameAll wishes).Knows generated (given ++ grant given (wishes.map (·.2))) ∧
    List.Forall₂ (fun w name => (r.renameAll wishes).new? w.1 = some name) wishes (grant given (wishes.map (·.2))) := by
  induction wishes generalizing r given with
  | nil =>
    refine ⟨?_, .nil⟩
    rw [List.map_nil, grant, List.append_nil]
    exact h
  | cons w wishes ih =>
    obtain ⟨hnotin, hnodup⟩ := List.nodup_cons.1 hw.nodup
    obtain ⟨hcurrent, hcurrents⟩ := List.forall_mem_cons.1 hw.current
    obtain ⟨hwanted, hwanteds⟩ := List.forall_mem_cons.1 hw.wanted
    obtain ⟨hunique, hknows⟩ := h.rename hcurrent hwanted
    obtain ⟨hknows, hgranted⟩ := ih hknows ⟨hnodup, hcurrents, hwanteds⟩
    change ((r.rename w.1 w.2).renameAll wishes).Knows _ _ ∧ _
    refine ⟨?_, .cons ?_ hgranted⟩
    · intro id hid
      rw [hknows id hid, List.map_cons, grant]
      simp only [List.mem_append, List.mem_cons]
      exact or_assoc.trans or_left_comm
    · change ((r.rename w.1 w.2).renameAll wishes).new? w.1 = _
      rw [new?_renameAll_of_notMem hnotin, new?_rename, if_pos rfl, hunique]

/-- The same for elements and what they want, one list beside the other. -/
theorem Knows.renameAll_zip (h : r.Knows generated given) {currents wants : List String}
    (hlength : currents.length = wants.length) (hnodup : currents.Nodup) (hcurrents : ∀ id ∈ currents, generated id)
    (hwants : ∀ wanted ∈ wants, ∀ id, IsVariant wanted id → ¬ generated id) :
    (r.renameAll (currents.zip wants)).Knows generated (given ++ grant given wants) ∧
    List.Forall₂ (fun id name => (r.renameAll (currents.zip wants)).new? id = some name) currents (grant given wants) ∧
    ∀ id, id ∉ currents → (r.renameAll (currents.zip wants)).new? id = r.new? id := by
  have hfst := List.map_fst_zip (Nat.le_of_eq hlength)
  have hsnd := List.map_snd_zip (Nat.le_of_eq hlength.symm)
  have hapart : AreApart generated (currents.zip wants) := by
    refine ⟨?_, ?_, ?_⟩
    · rw [hfst]
      exact hnodup
    · exact fun w hw => hcurrents w.1 (List.of_mem_zip hw).1
    · exact fun w hw => hwants w.2 (List.of_mem_zip hw).2
  obtain ⟨hknows, hgranted⟩ := h.renameAll hapart
  rw [hsnd] at hknows hgranted
  refine ⟨hknows, ?_, fun id hid => new?_renameAll_of_notMem (by rwa [hfst]) r⟩
  rwa [← List.forall₂_map_left_iff (f := Prod.fst)
    (R := fun id name => (r.renameAll (currents.zip wants)).new? id = some name), hfst] at hgranted

end Renaming

end Whiteboard.Remap
