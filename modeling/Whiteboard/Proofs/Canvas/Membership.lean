import Whiteboard.Proofs.Canvas.Cells
import Whiteboard.Proofs.Canvas.Redrawing
import Whiteboard.Proofs.Listing

/-!
# Groups that are read back

A text is put on a canvas, and the canvas is read as a diagram again. A group is written as a box around its members, and
read as the smallest box around a node. Main statement: what is read is a group whose box reaches the cell of the node, the
smallest of those, and nothing if there is none (`Applier.group_of_cell`).

That need not be the group in the text: a node that stands between the members of a group, or below the only row of them, is
in their box as well (`Applier.group_of_neighbour`).
-/

namespace Whiteboard

open Single

/-! ## How far the elements are moved -/

namespace Layout

open Whiteboard.Convert

variable {s : Skeleton}

/-- The containers are the boxes of the listed groups that have members. -/
theorem liesAt_of_mem_containers (hgrid : FitsGrid s) {g : String × Transform} (hg : g ∈ ({} : Layout).containers s) :
    g.1 ∈ s.groups ∧ cellsOf s g.1 ≠ [] ∧ g.2.LiesAt (groupFrame s.direction (cellsOf s g.1)) := by
  obtain ⟨name, hname, hboxed⟩ := List.mem_filterMap.1 hg
  obtain ⟨box, hbox, rfl⟩ := Option.map_eq_some_iff.1 hboxed
  have hmembers : members s name ≠ [] := by
    intro hnil
    rw [← members, hnil] at hbox
    cases hbox
  obtain ⟨box', hbox', hlies⟩ := exists_containerBox hgrid hmembers
  obtain rfl : box' = box := Option.some.inj (hbox'.symm.trans hbox)
  exact ⟨hname, by simpa [cellsOf] using hmembers, hlies⟩

/-- A group with cells has a box. -/
theorem exists_mem_containers (hgrid : FitsGrid s) {g : String} (hg : g ∈ s.groups) (hcells : cellsOf s g ≠ []) :
    ∃ box, (g, box) ∈ ({} : Layout).containers s := by
  obtain ⟨box, hbox, -⟩ := exists_containerBox hgrid (g := g) (by simpa [cellsOf] using hcells)
  refine ⟨box, List.mem_filterMap.2 ⟨g, hg, ?_⟩⟩
  rw [← members, hbox]
  rfl

/-- The box of a group with cells in a small grid is small. -/
theorem isSmall_of_cellsOf (hgrid : FitsGrid s) {g : String} (hcells : cellsOf s g ≠ []) :
    (groupFrame s.direction (cellsOf s g)).IsSmall :=
  isSmall_groupFrame hcells fun _ hc => cell_bounds hgrid hc

/-- The middle of a node is at whole coordinates. -/
theorem exists_center (hgrid : FitsGrid s) (i : Nat) :
    ∃ k l : Int, Denotes (({} : Layout).transformAt s i).center.x k ∧ Denotes (({} : Layout).transformAt s i).center.y l ∧
      (0 ≤ k ∧ k < 2 ^ 22) ∧ 0 ≤ l ∧ l < 2 ^ 22 := by
  rw [transformAt, List.getElem?_toArray]
  cases hp : (({} : Layout).placed s)[i]? with
  | none =>
    refine ⟨0, 0, ?_, ?_, by decide, by decide⟩ <;> decide +kernel
  | some p =>
    have hmem : p ∈ ({} : Layout).placed s := List.mem_of_getElem? hp
    obtain ⟨hcolumn, hrow⟩ := hgrid p hmem
    have hlies := liesAt_placed hmem hcolumn hrow
    obtain ⟨hx, hy⟩ := nodeFrame_bounds s.direction hcolumn hrow
    obtain ⟨hwidth, hheight⟩ := ({} : Layout).size_placed s hmem
    have hhalfWidth : Denotes (({} : Layout).nodeWidth / 2) (80 : Int) := by decide +kernel
    have hhalfHeight : Denotes (({} : Layout).nodeHeight / 2) (30 : Int) := by decide +kernel
    rw [← hwidth] at hhalfWidth
    rw [← hheight] at hhalfHeight
    exact ⟨_, _, hlies.x.add hhalfWidth (abs_lt.2 ⟨by omega, by omega⟩),
      hlies.y.add hhalfHeight (abs_lt.2 ⟨by omega, by omega⟩), by omega, by omega⟩

/-- Whatever is on a canvas lies at whole coordinates before it is moved. -/
theorem exists_liesAt_figures (hgrid : FitsGrid s) {fresh : Nat → String} {f : Figure}
    (hf : f ∈ ({} : Layout).figures s fresh) : ∃ frame : Frame, f.main.transform.LiesAt frame ∧ frame.IsSmall := by
  rcases List.mem_append.1 hf with hf | hf
  · rcases List.mem_append.1 hf with hf | hf
    · obtain ⟨⟨g, k⟩, hg, rfl⟩ := List.mem_map.1 hf
      obtain ⟨-, hcells, hlies⟩ := liesAt_of_mem_containers hgrid (List.fst_mem_of_mem_zipIdx hg)
      exact ⟨_, hlies, isSmall_of_cellsOf hgrid hcells⟩
    · obtain ⟨⟨p, i⟩, hp, rfl⟩ := List.mem_map.1 hf
      have hmem := List.fst_mem_of_mem_zipIdx hp
      obtain ⟨hcolumn, hrow⟩ := hgrid p hmem
      exact ⟨_, liesAt_placed hmem hcolumn hrow, isSmall_nodeFrame _ hcolumn hrow⟩
  · obtain ⟨⟨n, e⟩, -, rfl⟩ := List.mem_map.1 hf
    obtain ⟨x, y, hx, hy, hxsmall, hysmall⟩ := exists_center hgrid e.source
    obtain ⟨x', y', hx', hy', hxsmall', hysmall'⟩ := exists_center hgrid e.target
    have hwidth := (hx'.sub hx (abs_lt.2 ⟨by omega, by omega⟩)).abs
    have hheight := (hy'.sub hy (abs_lt.2 ⟨by omega, by omega⟩)).abs
    rw [← Int.cast_abs] at hwidth hheight
    have hless : ∀ k l : Int, (0 ≤ k ∧ k < 2 ^ 22) → (0 ≤ l ∧ l < 2 ^ 22) → 0 ≤ |k - l| ∧ |k - l| < 2 ^ 22 :=
      fun k l hk hl => ⟨abs_nonneg _, abs_lt.2 ⟨by omega, by omega⟩⟩
    refine ⟨⟨min x x', min y y', |x' - x|, |y' - y|⟩, ⟨hx.lesser hx', hy.lesser hy', hwidth, hheight⟩, ?_, ?_, ?_, ?_⟩
    · simp only
      omega
    · simp only
      omega
    · exact hless _ _ hxsmall' hxsmall
    · exact hless _ _ hysmall' hysmall

/-- Every element of a conversion lies in a small frame. -/
theorem exists_liesAt_convert (hgrid : FitsGrid s) {fresh : Nat → String} {e : Element}
    (he : e ∈ ({} : Layout).convert fresh s) : ∃ frame : Frame, e.transform.LiesAt frame ∧ frame.IsSmall := by
  obtain ⟨f, hf, rfl | ⟨content, -, rfl⟩⟩ := (Layout.mem_convert_iff _ s).1 he
  · exact exists_liesAt_figures hgrid hf
  · exact exists_liesAt_figures hgrid hf

end Layout

/-- The middle of the view is no further than ten million from the origin. -/
structure Viewport.IsCentral (v : Viewport) : Prop where
  left : -10000000 ≤ v.center.x
  right : v.center.x ≤ 10000000
  top : -10000000 ≤ v.center.y
  bottom : v.center.y ≤ 10000000

/-- The distance from the middle of a side to a point near the origin. -/
theorem exists_shift {low high middle : Float32} {k l : Int} (hlow : Denotes low k) (hhigh : Denotes high l)
    (hk : -40 ≤ k ∧ k < 2 ^ 22) (hkl : k ≤ l) (hl : l < 2 ^ 23)
    (hleft : -10000000 ≤ middle) (hright : middle ≤ 10000000) :
    ∃ p, Denotes (middle - (low + (high - low) / 2)) p ∧ |p| ≤ 2 ^ 24 := by
  have hminus : Denotes (-10000000) (-10000000 : Int) := by decide +kernel
  have hplus : Denotes 10000000 (10000000 : Int) := by decide +kernel
  obtain ⟨v, hv, hvleft, hvright⟩ := exists_denotes_of_between hminus hplus hleft hright
  have hhalf := (hhigh.sub hlow (abs_lt.2 ⟨by omega, by omega⟩)).half
  have hklow : ((-40 : Int) : ℚ) ≤ k := Int.cast_le.2 hk.1
  have hkless : (k : ℚ) < (2 ^ 22 : Int) := Int.cast_lt.2 hk.2
  have hkhigh : (k : ℚ) ≤ l := Int.cast_le.2 hkl
  have hlhigh : (l : ℚ) < (2 ^ 23 : Int) := Int.cast_lt.2 hl
  push_cast at hhalf hklow hkless hlhigh hvleft hvright
  have hcenter := hlow.isNear.add hhalf.isNear (by
    have hsize : |(k : ℚ) + (l - k) / 2| ≤ 2 ^ 23 := abs_le.2 ⟨by linarith, by linarith⟩
    linarith)
  obtain ⟨p, hp, hnear⟩ := hv.isNear.sub hcenter (by
    have hsize : |v - ((k : ℚ) + (l - k) / 2)| ≤ 2 ^ 23 + 10000000 := abs_le.2 ⟨by linarith, by linarith⟩
    linarith)
  refine ⟨p, hp, ?_⟩
  have hnear := abs_le.1 hnear
  exact abs_le.2 ⟨by linarith, by linarith⟩

/-- How far the elements of a layout are moved into the middle of the view. -/
theorem Layout.exists_displacement {s : Skeleton} (hgrid : FitsGrid s) {name : Nat → String} {box : Transform}
    (hbox : Scene.boundingBox? (({} : Layout).convert name s) = some box) {view : Viewport} (hview : view.IsCentral) :
    ∃ p q, Denotes (view.center.x - box.center.x) p ∧ |p| ≤ 2 ^ 24 ∧
      Denotes (view.center.y - box.center.y) q ∧ |q| ≤ 2 ^ 24 := by
  have hlies : ∀ e ∈ ({} : Layout).convert name s, ∃ frame : Frame, e.transform.LiesAt frame ∧ frame.IsSmall :=
    fun _ he => exists_liesAt_convert hgrid he
  choose! frame hframe using hlies
  cases hes : ({} : Layout).convert name s with
  | nil =>
    rw [hes] at hbox
    cases hbox
  | cons e es =>
    rw [hes] at hbox hframe
    obtain ⟨left, top, right, bottom, hleft, htop, hright, hbottom, hhull⟩ := Transform.exists_edgesOf hframe
    obtain rfl := Option.some.inj hbox
    obtain ⟨⟨hleft', hwidth, hright'⟩, htop', hheight, hbottom'⟩ := hhull.bounds fun f hf => by
      obtain ⟨e', he', rfl⟩ := List.mem_map.1 hf
      exact (hframe e' he').2
    obtain ⟨p, hp, hpsmall⟩ := exists_shift hleft hright hleft' hwidth hright' hview.left hview.right
    obtain ⟨q, hq, hqsmall⟩ := exists_shift htop hbottom htop' hheight hbottom' hview.top hview.bottom
    exact ⟨p, q, hp, hpsmall, hq, hqsmall⟩

/-! ## The smallest box -/

/-- A whole number after it has been rounded: in proportion to its size, and not at all if it is not large. -/
structure IsRoundingOf (r : ℚ) (a : Int) : Prop where
  near : |r - a| ≤ a / 2 ^ 23
  exact : a < 2 ^ 24 → r = a

/-- A number that is told from another one as the smaller of the two after both have been rounded. Numbers of `2 ^ 24` and more
are told apart up to a part in four million only. -/
def IsClearlyLess (a b : Int) : Prop := a < b ∧ (b < 2 ^ 24 ∨ (2 ^ 23 + 1) * a < (2 ^ 23 - 1) * b)

/-- What is clearly less stays less when it is rounded. -/
theorem IsRoundingOf.lt {r r' : ℚ} {a a' : Int} (h : IsRoundingOf r a) (h' : IsRoundingOf r' a') (hless : IsClearlyLess a a') :
    r < r' := by
  obtain ⟨hlt, hexact | hfar⟩ := hless
  · rw [h.exact (hlt.trans hexact), h'.exact hexact]
    exact Int.cast_lt.2 hlt
  · have hnear := abs_le.1 h.near
    have hnear' := abs_le.1 h'.near
    have hfar : ((2 ^ 23 + 1 : Int) * a : ℚ) < (2 ^ 23 - 1 : Int) * a' := by exact_mod_cast hfar
    push_cast at hfar
    linarith

/-- The area of a box with whole sides. -/
theorem Transform.LiesAt.exists_area {t : Transform} {f : Frame} (h : t.LiesAt f) (hf : f.IsSmall) (hwidth : 0 < f.width)
    (hheight : 0 < f.height) : ∃ r, Denotes t.area r ∧ IsRoundingOf r f.area := by
  have hw := h.width.abs
  have hh := h.height.abs
  rw [← Int.cast_abs, abs_of_pos hwidth] at hw
  rw [← Int.cast_abs, abs_of_pos hheight] at hh
  have hpos : 0 < f.width * f.height := mul_pos hwidth hheight
  have hsize : f.width * f.height < 2 ^ 22 * 2 ^ 22 :=
    mul_lt_mul hf.width.2 hf.height.2.le hheight (by norm_num)
  obtain ⟨r, hr, hnear⟩ := hw.exists_mul hh hpos (hsize.trans (by norm_num))
  refine ⟨r, hr, hnear, fun hless => ?_⟩
  exact hr.unique (hw.mul hh (by rwa [abs_of_pos hpos]))

/-- A box of that size is a container. -/
theorem Transform.LiesAt.hasContainerSize {t : Transform} {f : Frame} (h : t.LiesAt f) (hf : f.IsSmall)
    (hwidth : 300 ≤ f.width) (hheight : 300 ≤ f.height) : Element.hasContainerSize t = true := by
  obtain ⟨r, hr, hround⟩ := h.exists_area hf (by omega) (by omega)
  have harea : ((300 * 300 : Int) : ℚ) ≤ f.area := Int.cast_le.2 (mul_le_mul hwidth hheight (by norm_num) (by omega))
  have hleast : Denotes Element.containerMinArea (80000 : Int) := by decide +kernel
  have hle : Element.containerMinArea ≤ t.area := by
    rw [hleast.le_iff hr]
    have hnear := abs_le.1 hround.near
    push_cast at harea ⊢
    linarith
  rw [Element.hasContainerSize, Bool.or_eq_true]
  exact .inl (decide_eq_true hle)

/-- Areas are compared as the numbers that they denote. -/
theorem Snapshot.isSmallerArea_iff {a b : Float32} {p q : ℚ} (ha : Denotes a p) (hb : Denotes b q) :
    isSmallerArea a b = true ↔ p < q := by
  rw [isSmallerArea, ha.isNaN, ← ha.lt_iff hb]
  exact decide_eq_true_iff

/-- Of elements in the order of their keys, what is taken is not larger than any other, and smaller than any that comes before
it. -/
theorem Snapshot.smallest?_spec {es : List Element} {q : Element → ℚ} (hes : ∀ e ∈ es, Denotes e.transform.area (q e))
    {key : Element → Nat} (hordered : es.Pairwise fun c d => key c < key d) {b : Element} (hb : smallest? es = some b) :
    b ∈ es ∧ ∀ e ∈ es, q b ≤ q e ∧ (key e < key b → q b < q e) := by
  cases es with
  | nil => cases hb
  | cons first rest =>
    obtain rfl := Option.some.inj hb
    clear hb
    induction rest using List.reverseRecOn with
    | nil => simp
    | append_singleton rest c ih =>
      rw [← List.cons_append] at hes hordered ⊢
      obtain ⟨hes, hc⟩ := List.forall_mem_append.1 hes
      obtain ⟨hordered, -, hlast⟩ := List.pairwise_append.1 hordered
      obtain ⟨hmem, hleast⟩ := ih hes hordered
      rw [List.foldl_append, List.foldl_cons, List.foldl_nil]
      generalize rest.foldl _ first = b at *
      have hsmaller := isSmallerArea_iff (hc c (List.mem_singleton_self c)) (hes b hmem)
      by_cases hless : q c < q b
      · rw [if_pos (hsmaller.2 hless)]
        refine ⟨List.mem_append_right _ (List.mem_singleton_self c), List.forall_mem_append.2 ⟨fun e he => ?_, ?_⟩⟩
        · have hlt := hless.trans_le (hleast e he).1
          exact ⟨hlt.le, fun _ => hlt⟩
        · rw [List.forall_mem_singleton]
          exact ⟨le_rfl, fun h => absurd h (lt_irrefl _)⟩
      · rw [if_neg (mt hsmaller.1 hless)]
        refine ⟨List.mem_append_left _ hmem, List.forall_mem_append.2 ⟨hleast, ?_⟩⟩
        rw [List.forall_mem_singleton]
        exact ⟨not_lt.1 hless, fun h => absurd h (lt_asymm (hlast b hmem c (List.mem_singleton_self c)))⟩

/-! ## What is read -/

namespace Layout

section

variable {c : Layout} {s : Skeleton} {dx dy : Float32} {scene : Scene}

/-- The containers of a scene, by their outlines. -/
theorem Draws.map_outline_containers_eq (h : c.Draws s dx dy scene) (hsizes : c.TellsApart s) :
    scene.containers.map (·.outline) = (c.containers s).map (containerOutline dx dy) := by
  have hcontainers : ((c.containers s).map (containerOutline dx dy)).filter (·.isContainer) =
      (c.containers s).map (containerOutline dx dy) := by
    rw [List.filter_eq_self]
    intro e he
    obtain ⟨g, hg, rfl⟩ := List.mem_map.1 he
    have hsize : Element.hasContainerSize (g.2.moved dx dy) = true := hsizes.container g hg
    simp [containerOutline, Element.isContainer, Element.role?, hsize]
  have hnodes : ((c.placed s).map (nodeOutline dx dy)).filter (·.isContainer) = [] := by
    rw [List.filter_eq_nil_iff]
    intro e he
    obtain ⟨p, hp, rfl⟩ := List.mem_map.1 he
    have hnode := isNode_nodeOutline hsizes.node hp dx dy
    have hshape : (nodeOutline dx dy p).isShape = true := by
      cases h : p.node.shape <;> simp [nodeOutline, Element.isShape, Convert.kindOf, h]
    rw [Element.isNode_eq_not_isContainer hshape] at hnode
    simpa using hnode
  rw [h.map_outline_containers, outlines, List.filter_append, hcontainers, hnodes, List.append_nil]

/-- The nodes of a scene, by their outlines. -/
theorem Draws.map_outline_nodes_eq (h : c.Draws s dx dy scene) (hsizes : c.TellsApart s) :
    scene.nodes.map (·.outline) = (c.placed s).map (nodeOutline dx dy) := by
  have hcontainers : ((c.containers s).map (containerOutline dx dy)).filter (·.isNode) = [] := by
    rw [List.filter_eq_nil_iff]
    intro e he
    obtain ⟨g, hg, rfl⟩ := List.mem_map.1 he
    have hsize : Element.hasContainerSize (g.2.moved dx dy) = true := hsizes.container g hg
    simp [containerOutline, Element.isNode, Element.role?, hsize]
  have hnodes : ((c.placed s).map (nodeOutline dx dy)).filter (·.isNode) = (c.placed s).map (nodeOutline dx dy) := by
    rw [List.filter_eq_self]
    intro e he
    obtain ⟨p, hp, rfl⟩ := List.mem_map.1 he
    exact isNode_nodeOutline hsizes.node hp dx dy
  rw [h.map_outline_nodes, outlines, List.filter_append, hcontainers, hnodes, List.nil_append]

/-- All containers can stand for groups if all group ids can be written. -/
theorem Draws.map_outline_namedContainers (h : c.Draws s dx dy scene) (hsizes : c.TellsApart s)
    (hgroups : ∀ g ∈ s.groups, isSemanticId g = true) :
    (Snapshot.namedContainers scene).map (·.outline) = (c.containers s).map (containerOutline dx dy) := by
  have hnamed : Snapshot.namedContainers scene = scene.containers := by
    rw [Snapshot.namedContainers, List.filter_eq_self]
    intro e he
    have hmem : e.outline ∈ scene.containers.map (·.outline) := List.mem_map_of_mem he
    rw [h.map_outline_containers_eq hsizes] at hmem
    obtain ⟨g, hg, houtline⟩ := List.mem_map.1 hmem
    have hid : g.1 = e.id := congrArg (·.id) houtline
    rw [← hid]
    exact hgroups g.1 ((c.containers_sublist s).subset (List.mem_map_of_mem hg))
  rw [hnamed, h.map_outline_containers_eq hsizes]

end

variable {s : Skeleton}

/-- The default sizes tell nodes from containers. -/
theorem tellsApart_default (hgrid : FitsGrid s) : ({} : Layout).TellsApart s where
  node := by decide +kernel
  container := by
    intro g hg
    obtain ⟨-, hcells, hlies⟩ := liesAt_of_mem_containers hgrid hg
    exact hlies.hasContainerSize (isSmall_of_cellsOf hgrid hcells) (le_max_right _ _) (le_max_right _ _)

/-- The area of the box of a group. -/
def groupArea (s : Skeleton) (g : String) : Int := (groupFrame s.direction (cellsOf s g)).area

/-- The box of one group goes before that of another: it is smaller, or as large and listed first. -/
def GoesBefore (s : Skeleton) (g h : String) : Prop :=
  IsClearlyLess (groupArea s g) (groupArea s h) ∨
    (groupArea s g = groupArea s h ∧ groupArea s g < 2 ^ 24 ∧ s.groups.idxOf g < s.groups.idxOf h)

/-- What is read as the group of a placed node: of the listed groups whose boxes reach the cell of the node one that none of
the others goes before, and none if there is no such group. -/
structure IsReadGroup (s : Skeleton) (p : PlacedNode) (group? : Option String) : Prop where
  none_iff : group? = none ↔ ∀ g ∈ s.groups, ¬ Reaches (cellsOf s g) (cellOf s p)
  reaches : ∀ g, group? = some g → g ∈ s.groups ∧ Reaches (cellsOf s g) (cellOf s p)
  first : ∀ g, group? = some g → ∀ h ∈ s.groups, Reaches (cellsOf s h) (cellOf s p) → ¬ GoesBefore s h g

/-- The box of a group encloses a node after a move if it reaches its cell. -/
theorem encloses_iff_reaches (hgrid : FitsGrid s) {g : String × Transform} (hg : g ∈ ({} : Layout).containers s)
    {p : PlacedNode} (hp : p ∈ ({} : Layout).placed s) {dx dy : Float32} {x y : ℚ} (hdx : Denotes dx x) (hx : |x| ≤ 2 ^ 24)
    (hdy : Denotes dy y) (hy : |y| ≤ 2 ^ 24) :
    (g.2.moved dx dy).encloses (p.transform.moved dx dy) = true ↔ Reaches (cellsOf s g.1) (cellOf s p) := by
  obtain ⟨-, hcells, hlies⟩ := liesAt_of_mem_containers hgrid hg
  obtain ⟨hcolumn, hrow⟩ := hgrid p hp
  obtain ⟨henclosed, hclear⟩ := hlies.encloses_moved (isSmall_of_cellsOf hgrid hcells) (liesAt_placed hp hcolumn hrow)
    (isSmall_nodeFrame s.direction hcolumn hrow) hdx hx hdy hy
  rcases reaches_or_clear s.direction hcells (cellOf s p) with
    ⟨hreaches, hleft, htop, hright, hbottom⟩ | ⟨hreaches, hside⟩
  · exact iff_of_true (henclosed hleft htop hright hbottom) hreaches
  · exact iff_of_false (by rw [hclear hside]; decide) hreaches

section

variable {dx dy : Float32} {scene : Scene} {x y : ℚ} {p : PlacedNode} {e : Element}

/-- A container around a node is the box of a listed group that reaches its cell. -/
theorem Draws.reaches_of_encloses (h : ({} : Layout).Draws s dx dy scene) (hgrid : FitsGrid s)
    (hgroups : ∀ g ∈ s.groups, isSemanticId g = true) (hp : p ∈ ({} : Layout).placed s)
    (hdx : Denotes dx x) (hx : |x| ≤ 2 ^ 24) (hdy : Denotes dy y) (hy : |y| ≤ 2 ^ 24)
    (he : e.transform = p.transform.moved dx dy) {c : Element} (hc : c ∈ Snapshot.namedContainers scene)
    (henclosed : c.transform.encloses e.transform = true) :
    c.id ∈ s.groups ∧ Reaches (cellsOf s c.id) (cellOf s p) ∧
      ∃ r, Denotes c.transform.area r ∧ IsRoundingOf r (groupArea s c.id) := by
  have hmem : c.outline ∈ (Snapshot.namedContainers scene).map (·.outline) := List.mem_map_of_mem hc
  rw [h.map_outline_namedContainers (tellsApart_default hgrid) hgroups] at hmem
  obtain ⟨g, hg, houtline⟩ := List.mem_map.1 hmem
  have hid : c.id = g.1 := (congrArg (·.id) houtline).symm
  have htransform : c.transform = g.2.moved dx dy := (congrArg (·.transform) houtline).symm
  obtain ⟨hlisted, hcells, hlies⟩ := liesAt_of_mem_containers hgrid hg
  rw [he, htransform, encloses_iff_reaches hgrid hg hp hdx hx hdy hy] at henclosed
  rw [hid, htransform]
  exact ⟨hlisted, henclosed, hlies.exists_area (isSmall_of_cellsOf hgrid hcells)
    (lt_of_lt_of_le (by decide) (le_max_right _ _)) (lt_of_lt_of_le (by decide) (le_max_right _ _))⟩

/-- The box of a listed group that reaches the cell of a node is a container around it. -/
theorem Draws.exists_container (h : ({} : Layout).Draws s dx dy scene) (hgrid : FitsGrid s)
    (hgroups : ∀ g ∈ s.groups, isSemanticId g = true) (hp : p ∈ ({} : Layout).placed s)
    (hdx : Denotes dx x) (hx : |x| ≤ 2 ^ 24) (hdy : Denotes dy y) (hy : |y| ≤ 2 ^ 24)
    (he : e.transform = p.transform.moved dx dy) {g : String} (hg : g ∈ s.groups)
    (hreaches : Reaches (cellsOf s g) (cellOf s p)) :
    ∃ c ∈ (Snapshot.namedContainers scene).filter (·.transform.encloses e.transform), c.id = g := by
  obtain ⟨box, hbox⟩ := exists_mem_containers hgrid hg hreaches.nonempty
  have hmem : containerOutline dx dy (g, box) ∈ (Snapshot.namedContainers scene).map (·.outline) := by
    rw [h.map_outline_namedContainers (tellsApart_default hgrid) hgroups]
    exact List.mem_map_of_mem hbox
  obtain ⟨c, hc, houtline⟩ := List.mem_map.1 hmem
  have htransform : c.transform = box.moved dx dy := congrArg (·.transform) houtline
  refine ⟨c, List.mem_filter.2 ⟨hc, ?_⟩, congrArg (·.id) houtline⟩
  rw [he, htransform]
  exact (encloses_iff_reaches hgrid hbox hp hdx hx hdy hy).2 hreaches

/-- The containers come in the order of the listed groups. -/
theorem Draws.map_id_namedContainers_sublist (h : ({} : Layout).Draws s dx dy scene) (hgrid : FitsGrid s)
    (hgroups : ∀ g ∈ s.groups, isSemanticId g = true) :
    ((Snapshot.namedContainers scene).map (·.id)).Sublist s.groups := by
  have hids := congrArg (List.map (·.id)) (h.map_outline_namedContainers (tellsApart_default hgrid) hgroups)
  rw [List.map_map, List.map_map] at hids
  have hsublist := ({} : Layout).containers_sublist s
  exact hids ▸ hsublist

/-- What a scene that draws a layout says about the group of a node. It matters only which groups the containers around the node
stand for, and in which order they come. -/
theorem Draws.isReadGroup (h : ({} : Layout).Draws s dx dy scene) (hgrid : FitsGrid s) (hnodup : s.groups.Nodup)
    (hgroups : ∀ g ∈ s.groups, isSemanticId g = true) (hp : p ∈ ({} : Layout).placed s)
    (hdx : Denotes dx x) (hx : |x| ≤ 2 ^ 24) (hdy : Denotes dy y) (hy : |y| ≤ 2 ^ 24)
    (he : e.transform = p.transform.moved dx dy) :
    IsReadGroup s p ((Snapshot.innermost? (Snapshot.namedContainers scene) e).map (·.id)) := by
  have hof : ∀ c ∈ (Snapshot.namedContainers scene).filter (·.transform.encloses e.transform),
      c.id ∈ s.groups ∧ Reaches (cellsOf s c.id) (cellOf s p) ∧
        ∃ r, Denotes c.transform.area r ∧ IsRoundingOf r (groupArea s c.id) := fun c hc =>
    h.reaches_of_encloses hgrid hgroups hp hdx hx hdy hy he (List.mem_of_mem_filter hc) (List.mem_filter.1 hc).2
  have hall := fun g hg => h.exists_container (g := g) hgrid hgroups hp hdx hx hdy hy he hg
  have hordered : ((Snapshot.namedContainers scene).filter (·.transform.encloses e.transform)).Pairwise
      fun c d => s.groups.idxOf c.id < s.groups.idxOf d.id :=
    (List.pairwise_map.1 ((pairwise_idxOf hnodup).sublist (h.map_id_namedContainers_sublist hgrid hgroups))).filter _
  rw [Snapshot.innermost?]
  generalize (Snapshot.namedContainers scene).filter (·.transform.encloses e.transform) = around at *
  choose! hlisted hreaches r hr hround using hof
  cases hb : Snapshot.smallest? around with
  | none =>
    obtain rfl : around = [] := by
      cases around with
      | nil => rfl
      | cons c cs => cases hb
    refine ⟨iff_of_true rfl fun g hg hreaches => ?_, nofun, nofun⟩
    obtain ⟨c, hc, -⟩ := hall g hg hreaches
    cases hc
  | some b =>
    obtain ⟨hmem, hleast⟩ := Snapshot.smallest?_spec hr hordered hb
    refine ⟨iff_of_false (by simp) fun hnone => hnone b.id (hlisted b hmem) (hreaches b hmem), ?_, ?_⟩
    · rintro g hg
      obtain rfl : b.id = g := Option.some.inj hg
      exact ⟨hlisted b hmem, hreaches b hmem⟩
    · intro g hg g' hg' hreaches' hearlier
      obtain rfl : b.id = g := Option.some.inj hg
      obtain ⟨c, hc, rfl⟩ := hall g' hg' hreaches'
      obtain ⟨hle, hlt⟩ := hleast c hc
      rcases hearlier with hless | ⟨hsame, hexact, hindex⟩
      · exact absurd ((hround c hc).lt (hround b hmem) hless) (not_lt.2 hle)
      · have hequal : r c = r b := by
          rw [(hround c hc).exact hexact, (hround b hmem).exact (hsame ▸ hexact), hsame]
        exact absurd (hlt hindex) (hequal ▸ lt_irrefl _)

end

/-- The group that is read is the node's own if its box goes before every other one that reaches the cell of the node. -/
theorem IsReadGroup.eq_own {group? : Option String} (h : IsReadGroup s p group?)
    (hp : p ∈ ({} : Layout).placed s) (hlisted : ∀ g, p.node.group? = some g → g ∈ s.groups)
    (hfirst : ∀ g ∈ s.groups, Reaches (cellsOf s g) (cellOf s p) →
      ∃ own, p.node.group? = some own ∧ (g = own ∨ GoesBefore s own g)) :
    group? = p.node.group? := by
  cases hown : p.node.group? with
  | none =>
    refine h.none_iff.2 fun g hg hreaches => ?_
    obtain ⟨own, hsome, -⟩ := hfirst g hg hreaches
    rw [hown] at hsome
    cases hsome
  | some own =>
    have hmem : cellOf s p ∈ cellsOf s own :=
      List.mem_map_of_mem (List.mem_filter.2 ⟨hp, by rw [hown]; exact beq_self_eq_true _⟩)
    have hreaches := reaches_of_mem hmem
    cases hgroup : group? with
    | none => exact absurd hreaches (h.none_iff.1 hgroup own (hlisted own hown))
    | some g =>
      obtain ⟨hg, hgreaches⟩ := h.reaches g hgroup
      obtain ⟨own', hown', hearlier⟩ := hfirst g hg hgreaches
      obtain rfl : own = own' := Option.some.inj (hown.symm.trans hown')
      rcases hearlier with rfl | hearlier
      · rfl
      · exact absurd hearlier (h.first g hgroup own (hlisted own hown) hreaches)

end Layout

/-- What is read of a canvas as the group of a node. Whatever text takes the place of what was on a canvas: if that succeeds,
each of its nodes is read once, and its group is a listed one whose box reaches the cell of the node, the smallest of those,
or none if there is none. So it is the group in the text if no other box reaches the cell, or only larger ones, and a node
without a group has none if no box reaches its cell.

This is so if the groups of the text have distinct ids that can be written, none of them that of a node; if the elements are
made with ids of their own; and if no coordinate is so large that single precision numbers cannot tell neighbours apart. -/
theorem Applier.group_of_cell {records : RecordStore σ} {state : σ} {store : Store} {applied : Applied σ}
    (fresh : Nat → String) (key : String) (now : Nat) (text : String) (edgeIds : List String)
    (happly : Applier.apply ⟨({} : Layout).convert fresh, records, key, .replaceCanvas⟩ now store state text = .ok applied)
    (hgroups : (Document.parse text).groupIds.Nodup)
    (hsemantic : ∀ g ∈ (Document.parse text).groupIds, isSemanticId g = true)
    (hdisjoint : ∀ g ∈ (Document.parse text).groupIds, g ∉ (Document.parse text).nodeIds)
    (hedges : allocateEdgeIds [] (Document.parse text).pairs = .ok edgeIds)
    (hfresh : IsSupply (Skeleton.ofDocument (Document.parse text) edgeIds) fresh)
    (hview : store.canvas.scene.viewport.IsCentral)
    (hgrid : Layout.FitsGrid (Skeleton.ofDocument (Document.parse text) edgeIds)) :
    let s := Skeleton.ofDocument (Document.parse text) edgeIds
    let snapshot := Snapshot.ofCanvas applied.store.canvas.scene applied.store.canvas.diagramText?
    ∀ n ∈ (Document.parse text).nodes, ∃ p ∈ ({} : Layout).placed s, p.node.id = n.id ∧ p.node.group? = n.group? ∧
      ∃ k ∈ snapshot.nodes, k.id = n.id ∧ (∀ k' ∈ snapshot.nodes, k'.id = n.id → k' = k) ∧
        Layout.IsReadGroup s p k.group? ∧
        ((∀ g ∈ s.groups, Layout.Reaches (Layout.cellsOf s g) (Layout.cellOf s p) →
            ∃ own, n.group? = some own ∧ (g = own ∨ Layout.GoesBefore s own g)) → k.group? = n.group?) := by
  intro s snapshot n hn
  obtain ⟨made, hmade, helements⟩ := elementsOf_of_replace happly
  have hdoc := Document.wellFormed_parse_any text
  have hs : s.IsSound := Skeleton.isSound_ofDocument hdoc hgroups hdisjoint
  obtain ⟨name, box, hbox, hdraws⟩ := Apply.exists_draws hmade helements hedges hs hfresh
  obtain ⟨x, y, hdx, hx, hdy, hy⟩ := Layout.exists_displacement hgrid hbox hview
  have hnodes := hdraws.map_outline_nodes_eq (Layout.tellsApart_default hgrid)
  have hplaced : (⟨n.id, n.shape.normalized, n.group?⟩ : Skeleton.Node) ∈ (({} : Layout).placed s).map (·.node) :=
    (({} : Layout).placed_perm s).mem_iff.2 (List.mem_map_of_mem hn)
  obtain ⟨p, hp, hpn⟩ := List.mem_map.1 hplaced
  have hid : p.node.id = n.id := congrArg (·.id) hpn
  have hgroup : p.node.group? = n.group? := congrArg (·.group?) hpn
  obtain ⟨e, he, houtline⟩ : ∃ e ∈ applied.store.canvas.scene.nodes, e.outline = Layout.nodeOutline _ _ p :=
    List.mem_map.1 (hnodes ▸ List.mem_map_of_mem hp)
  have heid : e.id = n.id := (congrArg (·.id) houtline).trans hid
  have hsemantic : ∀ g ∈ s.groups, isSemanticId g = true := hsemantic
  have hread := hdraws.isReadGroup hgrid hgroups hsemantic hp hdx hx hdy hy (congrArg (·.transform) houtline)
  refine ⟨p, hp, hid, hgroup, Snapshot.nodeOf _ e, List.mem_map_of_mem he, heid, ?_, hread, ?_⟩
  · intro k' hk' hkid
    obtain ⟨e', he', rfl⟩ := List.mem_map.1 hk'
    have hnodup : (applied.store.canvas.scene.nodes.map (·.id)).Nodup := by
      have hids : applied.store.canvas.scene.nodes.map (·.id) = (({} : Layout).placed s).map (·.node.id) := by
        have h := congrArg (List.map (·.id)) hnodes
        rwa [List.map_map, List.map_map] at h
      rw [hids, (({} : Layout).map_id_placed_perm s).nodup_iff]
      exact (List.nodup_append.1 hs.shapes_nodup).1
    rw [List.inj_on_of_nodup_map hnodup he' he (hkid.trans heid.symm)]
  · rw [← hgroup]
    exact hread.eq_own hp fun g hg => hdoc.group?_listed hn g (hgroup ▸ hg)

/-- A node beside a group with one node in it. -/
def besideText : String := "flowchart TD\nb[\"B\"]\nsubgraph g\na[\"A\"]\nend\n"

/-- What that reads as. -/
def besideDocument : Document where
  direction? := some .topDown
  nodes := [⟨"b", 2, some ⟨"B", .rectangle, none⟩⟩, ⟨"a", 4, some ⟨"A", .rectangle, some "g"⟩⟩]
  groups := [⟨"g", "g", 3⟩]
  declarations := [⟨"b", "B", .rectangle, 2⟩, ⟨"a", "A", .rectangle, 4⟩]

/-- The node beside the group is read back as one of no group, and the one in it as one of the group. -/
theorem Applier.group_of_cell_beside :
    besideDocument.groupIds.Nodup ∧ (∀ g ∈ besideDocument.groupIds, isSemanticId g = true) ∧
    (∀ g ∈ besideDocument.groupIds, g ∉ besideDocument.nodeIds) ∧ allocateEdgeIds [] besideDocument.pairs = .ok [] ∧
    IsSupply (Skeleton.ofDocument besideDocument []) numberedId ∧ ({} : Viewport).IsCentral ∧
    Layout.FitsGrid (Skeleton.ofDocument besideDocument []) ∧
    ∃ applied, Applier.apply ⟨({} : Layout).convert numberedId, RecordStore.memory, "sketch", .replaceCanvas⟩ 0
        (Store.ofScene { viewport := {} }) [] besideText = .ok applied ∧
      let snapshot := Snapshot.ofCanvas applied.store.canvas.scene applied.store.canvas.diagramText?
      (∃ k ∈ snapshot.nodes, k.id = "a" ∧ k.group? = some "g") ∧ ∃ k ∈ snapshot.nodes, k.id = "b" ∧ k.group? = none := by
  have hread : Document.parse besideText = besideDocument := by decide +kernel
  have hgroups : besideDocument.groupIds.Nodup := by decide
  have hsemantic : ∀ g ∈ besideDocument.groupIds, isSemanticId g = true := by decide +kernel
  have hdisjoint : ∀ g ∈ besideDocument.groupIds, g ∉ besideDocument.nodeIds := by decide
  have hedges : allocateEdgeIds [] besideDocument.pairs = .ok [] := by decide +kernel
  have hsupply : IsSupply (Skeleton.ofDocument besideDocument []) numberedId := isSupply_numberedId (by decide +kernel) 0
  have hview : ({} : Viewport).IsCentral := ⟨by decide +kernel, by decide +kernel, by decide +kernel, by decide +kernel⟩
  have hsorted := Layout.entries_of_pairwise (Skeleton.ofDocument besideDocument []) (by decide +kernel)
  have hgrid : Layout.FitsGrid (Skeleton.ofDocument besideDocument []) := by
    simp only [Layout.FitsGrid, Layout.placed, Layout.cellOf, Layout.lastLayer, hsorted]
    decide +kernel
  have hbeside : ∀ p ∈ ({} : Layout).placed (Skeleton.ofDocument besideDocument []), p.node.id = "b" →
      ∀ g ∈ (Skeleton.ofDocument besideDocument []).groups,
        ¬ Layout.Reaches (Layout.cellsOf (Skeleton.ofDocument besideDocument []) g)
          (Layout.cellOf (Skeleton.ofDocument besideDocument []) p) := by
    simp only [Layout.cellsOf, Layout.members, Layout.placed, Layout.cellOf, Layout.lastLayer, hsorted]
    decide +kernel
  rw [← hread] at hgroups hsemantic hdisjoint hedges hsupply hgrid hbeside ⊢
  obtain ⟨applied, happly, -⟩ := exists_drawnScene {} (by rw [hread]; decide) hedges
  have hcells := Applier.group_of_cell numberedId "sketch" 0 besideText [] happly hgroups hsemantic hdisjoint hedges hsupply
    hview hgrid
  refine ⟨hgroups, hsemantic, hdisjoint, hedges, hsupply, hview, hgrid, applied, happly, ?_, ?_⟩
  · obtain ⟨p, hp, -, -, k, hk, hid, -, -, hown⟩ := hcells ⟨"a", 4, some ⟨"A", .rectangle, some "g"⟩⟩
      (by rw [hread]; decide)
    refine ⟨k, hk, hid, hown fun g hg _ => ⟨"g", rfl, .inl ?_⟩⟩
    rw [hread] at hg
    exact List.mem_singleton.1 hg
  · obtain ⟨p, hp, hpid, -, k, hk, hid, -, -, hown⟩ := hcells ⟨"b", 2, some ⟨"B", .rectangle, none⟩⟩
      (by rw [hread]; decide)
    exact ⟨k, hk, hid, hown fun g hg hreaches => absurd hreaches (hbeside p hp hpid g hg)⟩

/-! ## Texts after which a group is read otherwise -/

/-- A text whose groups have distinct ids that can be written, none of them that of a node. It is put on an empty canvas in the
given view, and the canvas shows one of its nodes with another group than the text gives it. -/
def IsRegrouped (view : Viewport) (text id : String) (before after : Option String) : Prop :=
  (Document.parse text).groupIds.Nodup ∧ (∀ g ∈ (Document.parse text).groupIds, isSemanticId g = true) ∧
  (∀ g ∈ (Document.parse text).groupIds, g ∉ (Document.parse text).nodeIds) ∧
  ((Document.parse text).node? id).map (·.group?) = some before ∧
  ∃ applied, Applier.apply ⟨({} : Layout).convert numberedId, RecordStore.memory, "sketch", .replaceCanvas⟩ 0
      (Store.ofScene { viewport := view }) [] text = .ok applied ∧
    ∃ k ∈ (Snapshot.ofCanvas applied.store.canvas.scene applied.store.canvas.diagramText?).nodes, k.id = id ∧ k.group? = after

/-- What a canvas shows is known once it is known what is drawn there. -/
theorem isRegrouped_of_drawnScene {view : Viewport} {text id : String} {before after : Option String} (doc : Document)
    (edgeIds : List String) (hread : Document.parse text = doc)
    (hgroups : doc.groupIds.Nodup ∧ (∀ g ∈ doc.groupIds, isSemanticId g = true) ∧
      ∀ g ∈ doc.groupIds, g ∉ doc.nodeIds)
    (hbefore : (doc.node? id).map (·.group?) = some before) (hedges : allocateEdgeIds [] doc.pairs = .ok edgeIds)
    (hafter : ∃ k ∈ (Snapshot.ofCanvas (drawnScene view doc edgeIds) (some text)).nodes, k.id = id ∧ k.group? = after) :
    IsRegrouped view text id before after := by
  subst hread
  have hnodes : (Document.parse text).nodes ≠ [] := by
    intro hnil
    rw [Document.node?, hnil] at hbefore
    cases hbefore
  obtain ⟨applied, happly, hcanvas⟩ := exists_drawnScene view hnodes hedges
  refine ⟨hgroups.1, hgroups.2.1, hgroups.2.2, hbefore, applied, happly, ?_⟩
  rw [hcanvas]
  exact hafter

/-- A group with one node in it, and another node below. -/
def belowText : String := "flowchart TD\nsubgraph g\na[\"A\"]\nend\na --> b\n"

/-- What that reads as. -/
def belowDocument : Document where
  direction? := some .topDown
  nodes := [⟨"a", 3, some ⟨"A", .rectangle, some "g"⟩⟩, ⟨"b", 5, none⟩]
  edges := [⟨"a", "b", none, false, 5⟩]
  groups := [⟨"g", "g", 2⟩]
  declarations := [⟨"a", "A", .rectangle, 3⟩]

/-- The node below is read back as one of the group. -/
theorem isRegrouped_belowText : IsRegrouped {} belowText "b" none (some "g") := by
  have hsorted := Layout.entries_of_pairwise (Skeleton.ofDocument belowDocument ["a_b"]) (by decide +kernel)
  refine isRegrouped_of_drawnScene belowDocument ["a_b"] (by decide +kernel) (by decide +kernel) rfl (by decide +kernel) ?_
  simp only [drawnScene, namedElements, Layout.convert, Layout.containers, Layout.placed, hsorted]
  decide +kernel

/-- A group with two nodes in it, and a third one between them. -/
def betweenText : String := "flowchart TD\na --> b --> c\nsubgraph g\na[\"A\"]\nc[\"C\"]\nend\n"

/-- What that reads as. -/
def betweenDocument : Document where
  direction? := some .topDown
  nodes := [⟨"a", 2, some ⟨"A", .rectangle, some "g"⟩⟩, ⟨"b", 2, none⟩, ⟨"c", 2, some ⟨"C", .rectangle, some "g"⟩⟩]
  edges := [⟨"a", "b", none, false, 2⟩, ⟨"b", "c", none, false, 2⟩]
  groups := [⟨"g", "g", 3⟩]
  declarations := [⟨"a", "A", .rectangle, 4⟩, ⟨"c", "C", .rectangle, 5⟩]

/-- The node between them is read back as one of the group. -/
theorem isRegrouped_betweenText : IsRegrouped {} betweenText "b" none (some "g") := by
  have hsorted := Layout.entries_of_pairwise (Skeleton.ofDocument betweenDocument ["a_b", "b_c"]) (by decide +kernel)
  refine isRegrouped_of_drawnScene betweenDocument ["a_b", "b_c"] (by decide +kernel) (by decide +kernel) rfl
    (by decide +kernel) ?_
  simp only [drawnScene, namedElements, Layout.convert, Layout.containers, Layout.placed, hsorted]
  decide +kernel

/-- Two groups with one node each, one below the other. -/
def adjacentText : String := "flowchart TD\nsubgraph g\na[\"A\"]\nend\nsubgraph h\nb[\"B\"]\nend\na --> b\n"

/-- What that reads as. -/
def adjacentDocument : Document where
  direction? := some .topDown
  nodes := [⟨"a", 3, some ⟨"A", .rectangle, some "g"⟩⟩, ⟨"b", 6, some ⟨"B", .rectangle, some "h"⟩⟩]
  edges := [⟨"a", "b", none, false, 8⟩]
  groups := [⟨"g", "g", 2⟩, ⟨"h", "h", 5⟩]
  declarations := [⟨"a", "A", .rectangle, 3⟩, ⟨"b", "B", .rectangle, 6⟩]

/-- The node of the lower group is read back as one of the upper. -/
theorem isRegrouped_adjacentText : IsRegrouped {} adjacentText "b" (some "h") (some "g") := by
  have hsorted := Layout.entries_of_pairwise (Skeleton.ofDocument adjacentDocument ["a_b"]) (by decide +kernel)
  refine isRegrouped_of_drawnScene adjacentDocument ["a_b"] (by decide +kernel) (by decide +kernel) rfl (by decide +kernel) ?_
  simp only [drawnScene, namedElements, Layout.convert, Layout.containers, Layout.placed, hsorted]
  decide +kernel

/-- A view so far away that all columns of a small layout have the same coordinate there. -/
def farView : Viewport where
  panX := -10000000000

/-- In a view far from the origin even the node beside the group is read back as one of it. -/
theorem isRegrouped_besideText : IsRegrouped farView besideText "b" none (some "g") := by
  have hsorted := Layout.entries_of_pairwise (Skeleton.ofDocument besideDocument []) (by decide +kernel)
  refine isRegrouped_of_drawnScene besideDocument [] (by decide +kernel) (by decide +kernel) rfl (by decide +kernel) ?_
  simp only [drawnScene, namedElements, Layout.convert, Layout.containers, Layout.placed, hsorted]
  decide +kernel

/-- A text whose groups can be told apart is not enough for a node to keep its group: it must not stand where the box of another
one is, which may be below the members of that group or between them, and the view must not be too far away. -/
theorem Applier.group_of_neighbour :
    IsRegrouped {} belowText "b" none (some "g") ∧ IsRegrouped {} betweenText "b" none (some "g") ∧
    IsRegrouped {} adjacentText "b" (some "h") (some "g") ∧ IsRegrouped farView besideText "b" none (some "g") :=
  ⟨isRegrouped_belowText, isRegrouped_betweenText, isRegrouped_adjacentText, isRegrouped_besideText⟩

end Whiteboard
