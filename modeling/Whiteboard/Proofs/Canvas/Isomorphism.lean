import Whiteboard.Proofs.Canvas.Remapping

/-!
# Remapping keeps the structure

Main statement: remapping any elements with distinct ids gives the same elements in the same order under ids that are distinct
again, and every reference follows the element that it leads to (`remap_isomorphic`). Nothing is assumed of where the elements
come from or of the ids they should have.

Ids are given up and claimed one at a time, so a wanted id may still be that of another element. What carries the proof is that
at any time the ids that are taken are those that the elements have come to, each once (`Renaming.Covers`): an element that is
renamed gives up the id it was made with and gets one that is free. This needs every element to be renamed at most once, and it
is, because containers, nodes, arrows and bound texts are told apart by their kinds.
-/

namespace Whiteboard

namespace Remap

/-! ## Who has a wish -/

/-- Those who have a wish are among the elements that may have one, in their order. -/
theorem keys_sublist (p : Element → Bool) (wish? : Element → Option String) {es : List Element}
    (h : ∀ e ∈ es, (wish? e).isSome = true → p e = true) :
    ((es.filterMap fun e => (wish? e).map (e.id, ·)).map (·.1)).Sublist ((es.filter p).map (·.id)) := by
  induction es with
  | nil => exact .slnil
  | cons e es ih =>
    obtain ⟨hfirst, hrest⟩ := List.forall_mem_cons.1 h
    cases hwish : wish? e with
    | none =>
      rw [List.filterMap_cons_none (by rw [hwish]; rfl)]
      exact (ih hrest).trans (((List.sublist_cons_self e es).filter p).map _)
    | some wanted =>
      have hp : p e = true := hfirst (by rw [hwish]; rfl)
      rw [List.filterMap_cons_some (by rw [hwish]; rfl), List.filter_cons_of_pos hp]
      exact (ih hrest).cons_cons e.id

/-- Only the chosen shapes wish for an id, each once. -/
theorem keys_shapeWishes_sublist (elements : List Element) (p : Element → Bool) (wish? : List String → Option String) :
    ((shapeWishes elements (elements.filter p) wish?).map (·.1)).Sublist ((elements.filter p).map (·.id)) := by
  have hhas : ∀ e ∈ elements.filter p, (wish? (boundTexts elements e.id)).isSome = true → p e = true :=
    fun e he _ => (List.mem_filter.1 he).2
  have hsub := keys_sublist p (fun e => wish? (boundTexts elements e.id)) hhas
  rwa [List.filter_filter, List.filter_congr fun e _ => Bool.and_self (p e)] at hsub

/-- Only arrows wish for the ids of edges, each once. -/
theorem keys_arrowWishes_sublist (r : Renaming) (edges : List Edge) (elements : List Element) :
    ((arrowWishes r edges elements).map (·.1)).Sublist ((elements.filter (·.isArrow)).map (·.id)) := by
  have hskip : ∀ (e : Element) (rest : List Element),
      ((rest.filter (·.isArrow)).map (·.id)).Sublist (((e :: rest).filter (·.isArrow)).map (·.id)) :=
    fun e rest => ((List.sublist_cons_self e rest).filter _).map _
  fun_induction arrowWishes r edges elements with
  | case1 edges => exact .slnil
  | case2 edges e rest hends ih => exact ih.trans (hskip e rest)
  | case3 edges e rest start finish hends hnone ih => exact ih.trans (hskip e rest)
  | case4 edges e rest start finish hends edge left hsome ih =>
    have harrow : e.isArrow = true := Element.isArrow_of_ends? (by rw [hends]; rfl)
    rw [List.filter_cons_of_pos harrow]
    exact ih.cons_cons e.id

/-- Only bound texts wish for the ids of texts, each once. -/
theorem keys_textWishes_sublist (r : Renaming) (elements : List Element) :
    ((textWishes r elements).map (·.1)).Sublist ((elements.filter (·.container?.isSome)).map (·.id)) := by
  have hhas : ∀ e ∈ elements, ((e.container?.bind r.new?).map (textPrefix ++ ·)).isSome = true →
      e.container?.isSome = true := by
    intro e _ hwish
    cases hcontainer : e.container? with
    | none => simp [hcontainer] at hwish
    | some owner => rfl
  have hsub := keys_sublist (·.container?.isSome) (fun e => (e.container?.bind r.new?).map (textPrefix ++ ·)) hhas
  simpa [textWishes, Function.comp_def] using hsub

/-! ## Ids taken and ids had -/

namespace Renaming

variable {r : Renaming} {ids : List String}

/-- The ids that are taken are those that the elements made with `ids` have come to, each once, and only these elements have
been renamed, each once. -/
structure Covers (r : Renaming) (ids : List String) : Prop where
  nodup : (ids.map r.resolve).Nodup
  used : ∀ name, name ∈ r.used ↔ name ∈ ids.map r.resolve
  keys : ∀ m ∈ r.mapping, m.1 ∈ ids
  keys_nodup : (r.mapping.map (·.1)).Nodup

/-- Before anything is renamed the ids that are taken are those of the elements. -/
theorem covers_start (h : ids.Nodup) : (⟨ids, []⟩ : Renaming).Covers ids := by
  have hresolve : ids.map (⟨ids, []⟩ : Renaming).resolve = ids := List.map_id ids
  refine ⟨?_, fun name => ?_, nofun, List.nodup_nil⟩
  · rw [hresolve]
    exact h
  · rw [hresolve]

/-- Renaming an element changes what its own id resolves to and nothing else. -/
theorem resolve_rename (r : Renaming) (current wanted id : String) : (r.rename current wanted).resolve id =
    if id = current then unique (r.used.filter (· != current)) wanted else r.resolve id := by
  rw [resolve, new?_rename]
  split <;> rfl

/-- Where an element that has not been renamed gives up its id, the ids of all others are left. -/
theorem Covers.mem_filter_used (h : r.Covers ids) {current : String} (hmem : current ∈ ids) (hown : r.resolve current = current)
    (name : String) : name ∈ r.used.filter (· != current) ↔ ∃ id ∈ ids, id ≠ current ∧ r.resolve id = name := by
  simp only [List.mem_filter, h.used, List.mem_map, bne_iff_ne, ne_eq]
  constructor
  · rintro ⟨⟨id, hid, rfl⟩, hne⟩
    exact ⟨id, hid, fun heq => hne (heq ▸ hown), rfl⟩
  · rintro ⟨id, hid, hne, rfl⟩
    exact ⟨⟨id, hid, rfl⟩, fun heq => hne (List.inj_on_of_nodup_map h.nodup hid hmem (heq.trans hown.symm))⟩

/-- An element that is renamed for the first time gives up its id and gets one that nobody has. -/
theorem Covers.rename (h : r.Covers ids) {current : String} (hmem : current ∈ ids) (hnew : r.new? current = none)
    (wanted : String) : (r.rename current wanted).Covers ids := by
  have hown : r.resolve current = current := by rw [resolve, hnew, Option.getD_none]
  have hinj := List.inj_on_of_nodup_map h.nodup
  have hfree := h.mem_filter_used hmem hown
  have hgiven := unique_notMem (r.used.filter (· != current)) wanted
  refine ⟨?_, ?_, ?_, ?_⟩
  · refine List.Nodup.map_on ?_ (List.Nodup.of_map _ h.nodup)
    intro x hx y hy hxy
    rw [resolve_rename, resolve_rename] at hxy
    split at hxy <;> split at hxy
    · rename_i hxc hyc
      rw [hxc, hyc]
    · rename_i hyc
      exact absurd (hxy ▸ (hfree _).2 ⟨y, hy, hyc, rfl⟩) hgiven
    · rename_i hxc _
      exact absurd (hxy ▸ (hfree _).2 ⟨x, hx, hxc, rfl⟩) hgiven
    · exact hinj hx hy hxy
  · intro name
    change name ∈ unique (r.used.filter (· != current)) wanted :: r.used.filter (· != current) ↔ _
    simp only [List.mem_cons, hfree, List.mem_map, resolve_rename]
    constructor
    · rintro (rfl | ⟨id, hid, hne, rfl⟩)
      · exact ⟨current, hmem, if_pos rfl⟩
      · exact ⟨id, hid, if_neg hne⟩
    · rintro ⟨id, hid, rfl⟩
      by_cases hcurrent : id = current
      · exact Or.inl (if_pos hcurrent)
      · exact Or.inr ⟨id, hid, hcurrent, (if_neg hcurrent).symm⟩
  · intro m hm
    rcases List.mem_cons.1 hm with rfl | hm
    · exact hmem
    · exact h.keys m (List.mem_of_mem_filter hm)
  · refine List.nodup_cons.2 ⟨?_, h.keys_nodup.sublist (List.filter_sublist.map _)⟩
    simp

/-- Several elements that are renamed for the first time. -/
theorem Covers.renameAll (h : r.Covers ids) {wishes : List (String × String)} (hnodup : (wishes.map (·.1)).Nodup)
    (hmem : ∀ w ∈ wishes, w.1 ∈ ids) (hnew : ∀ w ∈ wishes, r.new? w.1 = none) : (r.renameAll wishes).Covers ids := by
  induction wishes generalizing r with
  | nil => exact h
  | cons w wishes ih =>
    obtain ⟨hnotin, hnodup⟩ := List.nodup_cons.1 hnodup
    obtain ⟨hmem, hmems⟩ := List.forall_mem_cons.1 hmem
    obtain ⟨hnew, hnews⟩ := List.forall_mem_cons.1 hnew
    have hlater : ∀ w' ∈ wishes, (r.rename w.1 w.2).new? w'.1 = none := by
      intro w' hw'
      have hne : w'.1 ≠ w.1 := by
        intro heq
        have hmem : w'.1 ∈ wishes.map (·.1) := List.mem_map_of_mem hw'
        rw [heq] at hmem
        exact hnotin hmem
      rw [new?_rename, if_neg hne, hnews w' hw']
    exact ih (h.rename hmem hnew w.2) hnodup hmems hlater

/-- Elements of other kinds than those that are renamed keep their ids. -/
theorem new?_renameAll_of_keys {elements : List Element} (hids : (elements.map (·.id)).Nodup) {p : Element → Bool}
    {wishes : List (String × String)} (hkeys : (wishes.map (·.1)).Sublist ((elements.filter p).map (·.id))) {e : Element}
    (he : e ∈ elements) (hp : p e = false) (r : Renaming) : (r.renameAll wishes).new? e.id = r.new? e.id := by
  refine new?_renameAll_of_notMem (fun hmem => ?_) r
  obtain ⟨e', he', hid⟩ := List.mem_map.1 (hkeys.subset hmem)
  obtain ⟨he', hp'⟩ := List.mem_filter.1 he'
  rw [List.inj_on_of_nodup_map hids he' he hid, hp] at hp'
  cases hp'

/-- One round: elements of some kind, none of which has been renamed, get new ids, and those of other kinds keep theirs. -/
theorem Covers.round {elements : List Element} (h : r.Covers (elements.map (·.id))) (hids : (elements.map (·.id)).Nodup)
    {p : Element → Bool} (hnew : ∀ e ∈ elements, p e = true → r.new? e.id = none) {wishes : List (String × String)}
    (hkeys : (wishes.map (·.1)).Sublist ((elements.filter p).map (·.id))) :
    (r.renameAll wishes).Covers (elements.map (·.id)) ∧
      ∀ e ∈ elements, p e = false → (r.renameAll wishes).new? e.id = r.new? e.id := by
  have hwish : ∀ w ∈ wishes, ∃ e ∈ elements, p e = true ∧ e.id = w.1 := by
    intro w hw
    obtain ⟨e, he, hid⟩ := List.mem_map.1 (hkeys.subset (List.mem_map_of_mem hw))
    obtain ⟨he, hp⟩ := List.mem_filter.1 he
    exact ⟨e, he, hp, hid⟩
  refine ⟨h.renameAll (hids.sublist (hkeys.trans (List.filter_sublist.map _))) (fun w hw => ?_) fun w hw => ?_,
    fun e he hp => new?_renameAll_of_keys hids hkeys he hp r⟩
  · obtain ⟨e, he, -, hid⟩ := hwish w hw
    exact hid ▸ List.mem_map_of_mem he
  · obtain ⟨e, he, hp, hid⟩ := hwish w hw
    exact hid ▸ hnew e he hp

end Renaming

/-- After the four rounds the ids that are taken are those of the elements. -/
theorem covers_renamingOf {elements : List Element} (hids : (elements.map (·.id)).Nodup) (intended : Intended) :
    (renamingOf elements intended).Covers (elements.map (·.id)) := by
  obtain ⟨hcontainers, hkeep⟩ := (Renaming.covers_start hids).round hids (fun _ _ _ => rfl)
    (keys_shapeWishes_sublist elements (·.isContainer) (containerWish? intended.shapes))
  obtain ⟨hnodes, hkeep'⟩ := hcontainers.round hids
    (fun e he hnode => hkeep e he (Element.isContainer_of_isNode hnode))
    (keys_shapeWishes_sublist elements (·.isNode) (nodeWish? intended.shapes))
  have hshapes : ∀ e ∈ elements, e.isShape = false → Renaming.new? _ e.id = none := fun e he hshape =>
    (hkeep' e he (Element.isNode_of_not_isShape hshape)).trans (hkeep e he (Element.isContainer_of_not_isShape hshape))
  obtain ⟨harrows, hkeep''⟩ := hnodes.round hids
    (fun e he harrow => hshapes e he ((Element.of_isArrow harrow).1))
    (keys_arrowWishes_sublist _ intended.edges elements)
  exact (harrows.round hids
    (fun e he hcontainer => (hkeep'' e he ((Element.of_container? hcontainer).2)).trans
      (hshapes e he ((Element.of_container? hcontainer).1)))
    (keys_textWishes_sublist _ elements)).1

/-- A new id comes from an entry of the mapping. -/
theorem mem_of_new?_eq_some {r : Renaming} {id name : String} (h : r.new? id = some name) : (id, name) ∈ r.mapping := by
  rw [Renaming.new?, List.lookup_eq_some_iff] at h
  obtain ⟨before, after, heq, -⟩ := h
  rw [heq]
  simp

/-- Where no id is renamed twice every entry is found. -/
theorem new?_of_mem {r : Renaming} (hnodup : (r.mapping.map (·.1)).Nodup) {m : String × String} (h : m ∈ r.mapping) :
    r.new? m.1 = some m.2 := by
  obtain ⟨before, after, heq⟩ := List.append_of_mem h
  rw [heq, List.map_append, List.map_cons] at hnodup
  rw [Renaming.new?, List.lookup_eq_some_iff]
  refine ⟨before, after, heq, fun x hx => ?_⟩
  have hne : x.1 ≠ m.1 := fun hx' =>
    List.disjoint_of_nodup_append hnodup (hx' ▸ List.mem_map_of_mem hx) List.mem_cons_self
  simpa using hne.symm

end Remap

/-- Remapping is an isomorphism. Whatever elements with distinct ids are remapped and whatever ids they should have, the
outcome is the same elements in the same order, where every id, be it that of an element or one that it refers to, has given
way to its new one and nothing else has changed. The ids of the elements are distinct again; the new id of an element is the
one of the element at the same place, so references lead where they led; an id that no element has is its own new id; and the
mapping has an entry at most once for each element, with the ids that stand at its place before and after. -/
theorem remap_isomorphic (elements : List Element) (intended : Remap.Intended) (h : (elements.map (·.id)).Nodup) :
    let out := remap elements intended
    let new := fun id => (out.mapping.lookup id).getD id
    out.elements = elements.map (·.mapIds new) ∧
    (out.elements.map (·.id)).Nodup ∧
    (∀ (i : Nat) (e e' : Element), elements[i]? = some e → out.elements[i]? = some e' → new e.id = e'.id) ∧
    (∀ id, id ∉ elements.map (·.id) → new id = id) ∧
    (out.mapping.map (·.1)).Nodup ∧
    ∀ m ∈ out.mapping, ∃ (i : Nat) (e e' : Element),
      elements[i]? = some e ∧ out.elements[i]? = some e' ∧ m = (e.id, e'.id) := by
  intro out new
  have hcovers := Remap.covers_renamingOf h intended
  have helements : out.elements = elements.map (·.mapIds new) :=
    List.map_congr_left fun e _ => Remap.renamedElement_eq_mapIds _ e
  have hplace : ∀ (i : Nat) (e : Element), elements[i]? = some e → out.elements[i]? = some (e.mapIds new) := by
    intro i e he
    rw [helements, List.getElem?_map, he, Option.map_some]
  refine ⟨helements, ?_, fun i e e' he he' => ?_, fun id hid => ?_, hcovers.keys_nodup, fun m hm => ?_⟩
  · have hids : out.elements.map (·.id) = (elements.map (·.id)).map new := by
      rw [helements, List.map_map, List.map_map]
      rfl
    rw [hids]
    exact hcovers.nodup
  · rw [hplace i e he] at he'
    cases he'
    rfl
  · cases hnew : out.mapping.lookup id with
    | none => simp only [new, hnew, Option.getD_none]
    | some name => exact absurd (hcovers.keys _ (Remap.mem_of_new?_eq_some hnew)) hid
  · obtain ⟨e, he, hid⟩ := List.mem_map.1 (hcovers.keys m hm)
    obtain ⟨i, hi⟩ := List.getElem?_of_mem he
    have hnew : out.mapping.lookup m.1 = some m.2 := Remap.new?_of_mem hcovers.keys_nodup hm
    refine ⟨i, e, e.mapIds new, hi, hplace i e hi, Prod.ext hid.symm ?_⟩
    change m.2 = (out.mapping.lookup e.id).getD e.id
    rw [hid, hnew, Option.getD_some]

/-- Two nodes that want each other's ids, an arrow that leads from one of them to something that is not there, and an id that is
wanted twice. -/
def Remap.swapped : List Element :=
  let place : Transform := ⟨0, 0, 10, 10, 0⟩
  [⟨"b", .diamond, place, [⟨"t", .text⟩, ⟨"x", .arrow⟩], ["g"]⟩, ⟨"t", .text " a " (some "b") 16, place, [], []⟩,
    ⟨"a", .ellipse, place, [⟨"gone", .arrow⟩], []⟩, ⟨"u", .text "b" (some "a") 16, place, [], []⟩,
    ⟨"c", .diamond, place, [], []⟩, ⟨"v", .text "b" (some "c") 16, place, [], []⟩,
    ⟨"x", .arrow (some "b") (some "gone") true, place, [], []⟩]

/-- No id comes twice, although each of the two wished for is that of another element at first. -/
theorem remap_isomorphic_swapped :
    let out := remap Remap.swapped ⟨["a", "b"], [⟨"a_gone", "a", "gone"⟩]⟩
    (Remap.swapped.map (·.id)).Nodup ∧ (out.elements.map (·.id)).Nodup ∧
    out.elements.map (·.id) = ["a_2", "text_a_2", "b", "text_b", "b_2", "text_b_2", "x"] := by
  have h : (Remap.swapped.map (·.id)).Nodup := by decide
  exact ⟨h, (remap_isomorphic _ _ h).2.1, by decide +kernel⟩

end Whiteboard
