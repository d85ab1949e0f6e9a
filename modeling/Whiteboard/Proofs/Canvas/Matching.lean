import Whiteboard.Proofs.Canvas.Isomorphism

/-!
# Arrows and edges

Main statement: of the arrows that join two ids, in order, the first gets the id of the first edge between these, the second
that of the second, and so on, and arrows for which no edge is left keep their ids (`remap_matches`). Nothing is assumed of
where the elements come from.

The arrows of all pairs and the edges of all pairs come mixed, and a taken edge is taken out of the one list that all arrows
choose from. What an arrow takes depends on the arrows and the edges of its own pair alone, because taking an edge of another
pair leaves these as they are (`filter_of_extract?`); how many of them are gone is how many such arrows have come before
(`getElem?_takes`).
-/

namespace Whiteboard

/-- The items with a key are those at the places of the key. -/
theorem getElem?_filter_key [BEq κ] (keyOf : β → κ) (key : κ) (xs : List β) (k : Nat) :
    (xs.filter (keyOf · == key))[k]? = ((xs.map keyOf).idxsOf key)[k]?.bind (xs[·]?) := by
  rw [List.idxsOf_map]
  by_cases h : k < (xs.filter (keyOf · == key)).length
  · have h' : k < (xs.findIdxs (keyOf · == key)).length := by
      rwa [List.length_findIdxs, List.countP_eq_length_filter]
    rw [List.getElem?_eq_getElem h, List.getElem?_eq_getElem h', Option.bind_some,
      List.getElem_filter_eq_getElem_getElem_findIdxs h, List.getElem?_eq_getElem]
  · have h' : (xs.findIdxs (keyOf · == key)).length ≤ k := by
      rw [List.length_findIdxs, List.countP_eq_length_filter]
      omega
    rw [List.getElem?_eq_none (by omega), List.getElem?_eq_none h', Option.bind_none]

namespace Remap

/-! ## First come, first served -/

/-- Askers and keys matched by rank. Those who ask for the same key, in order, get the places of this key, in order, as long as
there are any. -/
structure IsMatching [BEq κ] (asked : List (Option κ)) (keys : List κ) (placeOf : Nat → Option Nat) : Prop where
  ranked : ∀ (key : κ) (k i : Nat), (asked.idxsOf (some key))[k]? = some i → placeOf i = (keys.idxsOf key)[k]?
  unasked : ∀ i, asked[i]? = some none → placeOf i = none
  injective : ∀ i i' j, placeOf i = some j → placeOf i' = some j → i = i'

/-- The place that an asker gets: of those with its key, the one that has as many before it as there are askers for the key
before this one. -/
def placeFor? [BEq κ] (asked : List (Option κ)) (keys : List κ) (i : Nat) : Option Nat :=
  asked[i]?.join.bind fun key => (keys.idxsOf key)[(asked.take i).count (some key)]?

/-- Taking keys by rank is a matching by rank. -/
theorem isMatching_placeFor? [BEq κ] [LawfulBEq κ] (asked : List (Option κ)) (keys : List κ) :
    IsMatching asked keys (placeFor? asked keys) := by
  refine ⟨fun key k i h => ?_, fun i h => ?_, fun i i' j h h' => ?_⟩
  · obtain ⟨hkey, hrank⟩ := Layout.getElem?_idxsOf.1 h
    rw [placeFor?, hkey, Option.join_some, Option.bind_some, hrank]
  · rw [placeFor?, h]
    rfl
  · have hplace : ∀ i, placeFor? asked keys i = some j → ∃ key, keys[j]? = some key ∧
        (asked.idxsOf (some key))[(keys.take j).count key]? = some i := by
      intro i h
      obtain ⟨key, hkey, hj⟩ := Option.bind_eq_some_iff.1 h
      obtain ⟨hkeys, hrank⟩ := Layout.getElem?_idxsOf.1 hj
      exact ⟨key, hkeys, Layout.getElem?_idxsOf.2 ⟨Option.join_eq_some_iff.1 hkey, hrank.symm⟩⟩
    obtain ⟨key, hkey, hi⟩ := hplace i h
    obtain ⟨key', hkey', hi'⟩ := hplace i' h'
    rw [hkey, Option.some.injEq] at hkey'
    rw [← hkey', hi, Option.some.injEq] at hi'
    exact hi'

/-- What is taken out of a list is the first item that satisfies `p`, and the others stay. -/
theorem extract?_spec {p : α → Bool} {xs left : List α} {x : α} (h : extract? p xs = some (x, left)) :
    ∃ before after, xs = before ++ x :: after ∧ left = before ++ after ∧ p x = true ∧ ∀ y ∈ before, p y = false := by
  induction xs generalizing left with
  | nil => cases h
  | cons y ys ih =>
    cases hp : p y with
    | true =>
      rw [extract?, if_pos hp] at h
      cases h
      exact ⟨[], ys, rfl, rfl, hp, by simp⟩
    | false =>
      rw [extract?, if_neg (by simp [hp]), Option.map_eq_some_iff] at h
      obtain ⟨⟨x', left'⟩, hrest, heq⟩ := h
      cases heq
      obtain ⟨before, after, rfl, rfl, hx, hbefore⟩ := ih hrest
      exact ⟨y :: before, after, rfl, rfl, hx, List.forall_mem_cons.2 ⟨hp, hbefore⟩⟩

/-- Where nothing can be taken out there is nothing to take. -/
theorem extract?_eq_none {p : α → Bool} {xs : List α} (h : extract? p xs = none) : xs.filter p = [] := by
  induction xs with
  | nil => rfl
  | cons y ys ih =>
    cases hp : p y with
    | true => simp [extract?, hp] at h
    | false =>
      rw [extract?, if_neg (by simp [hp]), Option.map_eq_none_iff] at h
      rw [List.filter_cons_of_neg (by simp [hp]), ih h]

section

variable [BEq κ] [LawfulBEq κ] {keyOf : β → κ}

/-- Taking the first item with a key takes the first of those that have the key, and none of those that have another. -/
theorem filter_of_extract? {key : κ} {xs left : List β} {x : β} (h : extract? (keyOf · == key) xs = some (x, left))
    (other : κ) : xs.filter (keyOf · == other) =
      if key == other then x :: left.filter (keyOf · == other) else left.filter (keyOf · == other) := by
  obtain ⟨before, after, rfl, rfl, hx, hbefore⟩ := extract?_spec h
  have hkey : keyOf x = key := by simpa using hx
  split
  · rename_i heq
    rw [beq_iff_eq] at heq
    subst heq
    have hnone : before.filter (keyOf · == key) = [] := List.filter_eq_nil_iff.2 fun y hy => by simp [hbefore y hy]
    rw [List.filter_append, List.filter_append, hnone, List.nil_append, List.nil_append]
    exact List.filter_cons_of_pos hx
  · rename_i hne
    rw [List.filter_append, List.filter_append, List.filter_cons_of_neg (by simpa [hkey] using hne)]

/-- What is taken from a supply, by one after the other: each takes the first that is left of those with the key that it asks
for. -/
def takes (keyOf : β → κ) (supply : List β) : List (Option κ) → List (Option β)
  | [] => []
  | asked :: rest =>
    match asked.bind fun key => extract? (keyOf · == key) supply with
    | none => none :: takes keyOf supply rest
    | some (x, left) => some x :: takes keyOf left rest

/-- What is taken by the one at some place, by the number of those before it who ask for the same. Nothing is taken by one who
asks for nothing or for a key of which nothing is left. -/
theorem getElem?_takes_filter {supply : List β} {asked : List (Option κ)} {i : Nat} (hi : i < asked.length) :
    (takes keyOf supply asked)[i]? = some (asked[i].bind fun key =>
      (supply.filter (keyOf · == key))[(asked.take i).count (some key)]?) := by
  induction asked generalizing supply i with
  | nil => cases hi
  | cons first rest ih =>
    rw [takes]
    cases hfirst : first.bind fun key => extract? (keyOf · == key) supply with
    | none =>
      cases i with
      | zero =>
        cases first with
        | none => rfl
        | some key => simp [extract?_eq_none hfirst]
      | succ i =>
        rw [List.getElem?_cons_succ, ih (Nat.lt_of_succ_lt_succ hi), List.getElem_cons_succ, List.take_succ_cons]
        congr 2
        funext key
        rw [List.count_cons]
        split
        · rename_i heq
          rw [beq_iff_eq] at heq
          subst heq
          simp [extract?_eq_none hfirst]
        · rfl
    | some taken =>
      obtain ⟨x, left⟩ := taken
      obtain ⟨key, rfl, htaken⟩ := Option.bind_eq_some_iff.1 hfirst
      cases i with
      | zero => simp [filter_of_extract? htaken key]
      | succ i =>
        change (takes keyOf left rest)[i]? = _
        rw [ih (Nat.lt_of_succ_lt_succ hi), List.getElem_cons_succ, List.take_succ_cons]
        congr 2
        funext other
        rw [List.count_cons, filter_of_extract? htaken other]
        by_cases h : key = other <;> simp [h]

/-- What is taken stands at the place that is due. -/
theorem getElem?_takes {supply : List β} {asked : List (Option κ)} {i : Nat} (hi : i < asked.length) :
    (takes keyOf supply asked)[i]? = some ((placeFor? asked (supply.map keyOf) i).bind (supply[·]?)) := by
  rw [getElem?_takes_filter hi, placeFor?, List.getElem?_eq_getElem hi, Option.join_some, Option.bind_assoc]
  simp only [getElem?_filter_key]

end

/-! ## Arrows -/

/-- The ids at the ends of an edge. -/
def Edge.ends (e : Edge) : String × String := (e.source, e.target)

/-- The new ids at the ends of an arrow. -/
def resolvedEnds? (r : Renaming) (e : Element) : Option (String × String) :=
  e.ends?.map fun (start, finish) => (r.resolve start, r.resolve finish)

/-- The wishes of the arrows are the ids of the edges that they take. -/
theorem arrowWishes_eq_takes (r : Renaming) (edges : List Edge) (elements : List Element) :
    arrowWishes r edges elements =
      (elements.zip (takes Edge.ends edges (elements.map (resolvedEnds? r)))).filterMap fun (e, edge?) =>
        edge?.map fun edge => (e.id, edge.id) := by
  fun_induction arrowWishes r edges elements with
  | case1 edges => rfl
  | case2 edges e rest hends ih => simp [takes, resolvedEnds?, hends, ih]
  | case3 edges e rest start finish hends hnone ih =>
    have htake : extract? (Edge.ends · == (r.resolve start, r.resolve finish)) edges = none := hnone
    simp [takes, resolvedEnds?, hends, htake, ih]
  | case4 edges e rest start finish hends edge left hsome ih =>
    have htake : extract? (Edge.ends · == (r.resolve start, r.resolve finish)) edges = some (edge, left) := hsome
    simp [takes, resolvedEnds?, hends, htake, ih]

/-- Where ids are distinct, one id is found at one place only. -/
theorem getElem?_inj_id {elements : List Element} (hids : (elements.map (·.id)).Nodup) {i i' : Nat} {e e' : Element}
    (he : elements[i]? = some e) (he' : elements[i']? = some e') (hid : e'.id = e.id) : i' = i := by
  have hlt : i' < (elements.map (·.id)).length := by
    rw [List.length_map]
    exact (List.getElem?_eq_some_iff.1 he').1
  refine (List.getElem?_inj hlt hids).1 ?_
  rw [List.getElem?_map, List.getElem?_map, he, he', Option.map_some, Option.map_some, hid]

/-- An arrow wishes for the id of an edge if one is due to it, and for none otherwise: a wish under its id is its own. -/
theorem arrowWishes_of_placeFor? (r : Renaming) (edges : List Edge) {elements : List Element}
    (hids : (elements.map (·.id)).Nodup) {i : Nat} {e : Element} (he : elements[i]? = some e) :
    match placeFor? (elements.map (resolvedEnds? r)) (edges.map Edge.ends) i with
    | some j => ∃ edge, edges[j]? = some edge ∧ (e.id, edge.id) ∈ arrowWishes r edges elements
    | none => e.id ∉ (arrowWishes r edges elements).map (·.1) := by
  have htaken : ∀ {i : Nat} {e : Element}, elements[i]? = some e →
      (takes Edge.ends edges (elements.map (resolvedEnds? r)))[i]? =
        some ((placeFor? (elements.map (resolvedEnds? r)) (edges.map Edge.ends) i).bind (edges[·]?)) := by
    intro i e he
    refine getElem?_takes ?_
    rw [List.length_map]
    exact (List.getElem?_eq_some_iff.1 he).1
  rw [arrowWishes_eq_takes]
  cases hplace : placeFor? (elements.map (resolvedEnds? r)) (edges.map Edge.ends) i with
  | some j =>
    obtain ⟨key, -, hj⟩ := Option.bind_eq_some_iff.1 hplace
    obtain ⟨edge, hedge, -⟩ : ∃ edge, edges[j]? = some edge ∧ edge.ends = key := by
      have hkey := (Layout.getElem?_idxsOf.1 hj).1
      rwa [List.getElem?_map, Option.map_eq_some_iff] at hkey
    refine ⟨edge, hedge, List.mem_filterMap.2 ⟨(e, some edge), List.mem_of_getElem? (i := i) ?_, rfl⟩⟩
    rw [List.getElem?_zip_eq_some]
    exact ⟨he, by rw [htaken he, hplace, Option.bind_some, hedge]⟩
  | none =>
    intro hmem
    obtain ⟨w, hw, hid⟩ := List.mem_map.1 hmem
    obtain ⟨⟨e', edge?⟩, hzip, hw⟩ := List.mem_filterMap.1 hw
    obtain ⟨edge, rfl, rfl⟩ := Option.map_eq_some_iff.1 hw
    obtain ⟨i', hi'⟩ := List.getElem?_of_mem hzip
    obtain ⟨he', htake⟩ := List.getElem?_zip_eq_some.1 hi'
    rw [getElem?_inj_id hids he he' hid, htaken he, hplace] at htake
    cases htake

/-! ## Rounds -/

/-- The renaming once the shapes have their ids. -/
def shapeRenaming (elements : List Element) (intended : Intended) : Renaming :=
  let r : Renaming := ⟨elements.map (·.id), []⟩
  let r := r.renameAll (shapeWishes elements (elements.filter (·.isContainer)) (containerWish? intended.shapes))
  r.renameAll (shapeWishes elements (elements.filter (·.isNode)) (nodeWish? intended.shapes))

/-- The renaming once the arrows have theirs. -/
def arrowRenaming (elements : List Element) (intended : Intended) : Renaming :=
  let r := shapeRenaming elements intended
  r.renameAll (arrowWishes r intended.edges elements)

/-- Texts are renamed last. -/
theorem renamingOf_eq (elements : List Element) (intended : Intended) : renamingOf elements intended =
    (arrowRenaming elements intended).renameAll (textWishes (arrowRenaming elements intended) elements) := rfl

/-- At first only shapes have new ids. -/
theorem new?_shapeRenaming_eq_none {elements : List Element} (intended : Intended) {id : String}
    (h : ∀ e ∈ elements, e.isShape = true → e.id ≠ id) : (shapeRenaming elements intended).new? id = none := by
  have hkeys : ∀ {p : Element → Bool} {wish? : List String → Option String},
      (∀ e : Element, e.isShape = false → p e = false) →
      id ∉ (shapeWishes elements (elements.filter p) wish?).map (·.1) := by
    intro p wish? hp hmem
    obtain ⟨e, he, hid⟩ := List.mem_map.1 ((keys_shapeWishes_sublist elements p wish?).subset hmem)
    obtain ⟨he, hpe⟩ := List.mem_filter.1 he
    cases hshape : e.isShape with
    | true => exact h e he hshape hid
    | false =>
      rw [hp e hshape] at hpe
      cases hpe
  rw [shapeRenaming, Renaming.new?_renameAll_of_notMem (hkeys fun _ => Element.isNode_of_not_isShape),
    Renaming.new?_renameAll_of_notMem (hkeys fun _ => Element.isContainer_of_not_isShape)]
  rfl

section

variable {elements : List Element} (hids : (elements.map (·.id)).Nodup) (intended : Intended) {e : Element}
  (he : e ∈ elements)

include hids he

/-- Once arrows have their ids they keep them, and so do shapes. -/
theorem new?_renamingOf (hcontainer : e.container? = none) :
    (renamingOf elements intended).new? e.id = (arrowRenaming elements intended).new? e.id := by
  rw [renamingOf_eq]
  exact Renaming.new?_renameAll_of_keys hids (keys_textWishes_sublist _ elements) he (by rw [hcontainer]; rfl) _

/-- Once shapes have their ids they keep them. -/
theorem new?_arrowRenaming (harrow : e.isArrow = false) :
    (arrowRenaming elements intended).new? e.id = (shapeRenaming elements intended).new? e.id :=
  Renaming.new?_renameAll_of_keys hids (keys_arrowWishes_sublist _ intended.edges elements) he harrow _

end

/-- The new id of the shape with an id; one that is not that of a shape stands for itself. -/
def shapeFor (elements : List Element) (mapping : List (String × String)) (id : String) : String :=
  if elements.any (fun e => e.isShape && e.id == id) then (mapping.lookup id).getD id else id

/-- The pairs that the elements join, one by one: those bound at both ends join what stands for their ends. -/
def joinedPairs (elements : List Element) (mapping : List (String × String)) : List (Option (String × String)) :=
  elements.map fun e => e.ends?.map fun (start, finish) => (shapeFor elements mapping start, shapeFor elements mapping finish)

/-- The ids by which the ends of arrows are told are those that shapes have in the end. -/
theorem resolve_shapeRenaming {elements : List Element} (hids : (elements.map (·.id)).Nodup) (intended : Intended)
    (id : String) :
    (shapeRenaming elements intended).resolve id = shapeFor elements (renamingOf elements intended).mapping id := by
  rw [shapeFor]
  split
  · rename_i hany
    obtain ⟨e, he, hshape⟩ := List.any_eq_true.1 hany
    obtain ⟨hshape, hid⟩ := Bool.and_eq_true_iff.1 hshape
    have harrow := (Element.of_isShape hshape).1
    rw [← beq_iff_eq.1 hid, Renaming.resolve, ← new?_arrowRenaming hids intended he harrow,
      ← new?_renamingOf hids intended he (Element.of_isShape hshape).2.2.1]
    rfl
  · rename_i hany
    rw [Renaming.resolve, new?_shapeRenaming_eq_none intended, Option.getD_none]
    intro e he hshape hid
    exact hany (List.any_eq_true.2 ⟨e, he, by simp [hshape, hid]⟩)

/-- What the joined pairs are by the final mapping they are already after the shapes are renamed. -/
theorem joinedPairs_eq {elements : List Element} (hids : (elements.map (·.id)).Nodup) (intended : Intended) :
    joinedPairs elements (renamingOf elements intended).mapping =
      elements.map (resolvedEnds? (shapeRenaming elements intended)) := by
  have hshapes : (shapeRenaming elements intended).resolve = shapeFor elements (renamingOf elements intended).mapping :=
    funext (resolve_shapeRenaming hids intended)
  rw [joinedPairs]
  refine List.map_congr_left fun e _ => ?_
  rw [resolvedEnds?, hshapes]

end Remap

/-- Arrows are matched with edges by rank. Whatever elements with distinct ids are remapped and whatever ids they should have:
where each arrow stands for the pair of new ids of the shapes at its ends (an id that is not that of a shape stands for itself),
the arrows of one pair, in order, take the edges of this pair, in order, as long as there are any; no two arrows take the same
edge, and none is taken by an arrow that is not bound at both ends. An arrow that takes an edge gets the id of this, or a
numbered variant of it, and any other arrow keeps its id. -/
theorem remap_matches (elements : List Element) (intended : Remap.Intended) (h : (elements.map (·.id)).Nodup) :
    let out := remap elements intended
    ∃ edgeOf,
      Remap.IsMatching (Remap.joinedPairs elements out.mapping) (intended.edges.map Remap.Edge.ends) edgeOf ∧
      ∀ (i : Nat) (e : Element), elements[i]? = some e → e.isArrow = true →
        ∃ e', out.elements[i]? = some e' ∧
          match edgeOf i with
          | some j => ∃ edge, intended.edges[j]? = some edge ∧ out.mapping.lookup e.id = some e'.id ∧
              Remap.IsVariant edge.id e'.id
          | none => out.mapping.lookup e.id = none ∧ e'.id = e.id := by
  intro out
  refine ⟨_, Remap.isMatching_placeFor? _ _, fun i e he harrow => ?_⟩
  have hmem := List.mem_of_getElem? he
  have hlookup : out.mapping.lookup e.id = (Remap.arrowRenaming elements intended).new? e.id :=
    Remap.new?_renamingOf h intended hmem (Element.of_isArrow harrow).2.2
  have hid : (Remap.renamedElement (Remap.renamingOf elements intended) e).id = (out.mapping.lookup e.id).getD e.id := rfl
  refine ⟨Remap.renamedElement (Remap.renamingOf elements intended) e, ?_, ?_⟩
  · change (elements.map _)[i]? = _
    rw [List.getElem?_map, he, Option.map_some]
  have hpairs : Remap.joinedPairs elements out.mapping =
      elements.map (Remap.resolvedEnds? (Remap.shapeRenaming elements intended)) := Remap.joinedPairs_eq h intended
  have hwish := Remap.arrowWishes_of_placeFor? (Remap.shapeRenaming elements intended) intended.edges h he
  rw [← hpairs] at hwish
  cases hplace : Remap.placeFor? (Remap.joinedPairs elements out.mapping) (intended.edges.map Remap.Edge.ends) i with
  | some j =>
    rw [hplace] at hwish
    obtain ⟨edge, hedge, hwish⟩ := hwish
    have hkeys := (h.sublist (List.filter_sublist.map _)).sublist
      (Remap.keys_arrowWishes_sublist (Remap.shapeRenaming elements intended) intended.edges elements)
    obtain ⟨name, hname, hvariant⟩ :=
      Remap.Renaming.exists_new?_renameAll hkeys hwish (Remap.shapeRenaming elements intended)
    have hnew : out.mapping.lookup e.id = some name := hlookup.trans hname
    rw [hnew, Option.getD_some] at hid
    exact ⟨edge, hedge, by rw [hnew, hid], by rw [hid]; exact hvariant⟩
  | none =>
    rw [hplace] at hwish
    have hshape : ∀ e' ∈ elements, e'.isShape = true → e'.id ≠ e.id := by
      intro e' he' hshape' heq
      rw [List.inj_on_of_nodup_map h he' hmem heq, (Element.of_isArrow harrow).1] at hshape'
      cases hshape'
    have hnone : out.mapping.lookup e.id = none := by
      rw [hlookup, Remap.arrowRenaming, Remap.Renaming.new?_renameAll_of_notMem hwish]
      exact Remap.new?_shapeRenaming_eq_none intended hshape
    rw [hnone, Option.getD_none] at hid
    exact ⟨hnone, hid⟩

/-- Two shapes and seven arrows: three from one to the other, for which there are two edges, a loop, one that leads to what is
not there, one that is bound at one end only and one back, for which there is no edge. -/
def Remap.tangled : List Element :=
  let place : Transform := ⟨0, 0, 10, 10, 0⟩
  let arrow (id : String) (start? finish? : Option String) : Element := ⟨id, .arrow start? finish? false, place, [], []⟩
  [arrow "x1" (some "n1") (some "n2"), ⟨"n1", .diamond, place, [], []⟩, ⟨"t1", .text "a" (some "n1") 16, place, [], []⟩,
    arrow "x2" (some "n1") none, arrow "x3" (some "n1") (some "n1"), arrow "x4" (some "n2") (some "gone"),
    arrow "x5" (some "n1") (some "n2"), arrow "x6" (some "n2") (some "n1"), arrow "x7" (some "n1") (some "n2"),
    ⟨"n2", .ellipse, place, [], []⟩, ⟨"t2", .text "b" (some "n2") 16, place, [], []⟩]

/-- Each arrow gets the next edge of its own pair, as long as there is one. -/
theorem remap_matches_tangled :
    let intended : Remap.Intended := ⟨["a", "b"], [⟨"b_gone", "b", "gone"⟩, ⟨"a_b", "a", "b"⟩, ⟨"a_a", "a", "a"⟩, ⟨"a_b", "a", "b"⟩]⟩
    let out := remap Remap.tangled intended
    (Remap.tangled.map (·.id)).Nodup ∧
    (∃ edgeOf,
      Remap.IsMatching (Remap.joinedPairs Remap.tangled out.mapping) (intended.edges.map Remap.Edge.ends) edgeOf ∧
      edgeOf 0 = some 1 ∧ edgeOf 6 = some 3 ∧ edgeOf 8 = none ∧ edgeOf 5 = some 0 ∧ edgeOf 7 = none ∧ edgeOf 3 = none) ∧
    out.elements.map (·.id) = ["a_b", "a", "text_a", "x2", "a_a", "b_gone", "a_b_2", "x6", "x7", "b", "text_b"] := by
  intro intended out
  have h : (Remap.tangled.map (·.id)).Nodup := by decide
  refine ⟨h, ?_, by decide +kernel⟩
  obtain ⟨edgeOf, hmatching, -⟩ := remap_matches Remap.tangled intended h
  refine ⟨edgeOf, hmatching, ?_, ?_, ?_, ?_, ?_, hmatching.unasked 3 (by decide +kernel)⟩
  · exact (hmatching.ranked ("a", "b") 0 0 (by decide +kernel)).trans (by decide)
  · exact (hmatching.ranked ("a", "b") 1 6 (by decide +kernel)).trans (by decide)
  · exact (hmatching.ranked ("a", "b") 2 8 (by decide +kernel)).trans (by decide)
  · exact (hmatching.ranked ("b", "gone") 0 5 (by decide +kernel)).trans (by decide)
  · exact (hmatching.ranked ("b", "a") 0 7 (by decide +kernel)).trans (by decide)

end Whiteboard
