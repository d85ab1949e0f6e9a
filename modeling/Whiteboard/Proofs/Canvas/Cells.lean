import Whiteboard.Proofs.Canvas.Conversion
import Whiteboard.Proofs.Canvas.Layout
import Whiteboard.Proofs.Number.Single

/-!
# The cells of a layout

A layout puts nodes into the cells of a grid, and the box of a group around those of its members. What follows is the
layout in whole numbers: the place of each node (`Layout.liesAt_placed`), the box of each group
(`Layout.exists_containerBox`), and which cells it reaches (`Layout.reaches_or_clear`).

Coordinates are single precision numbers. They stand for whole numbers as long as the grid has no more than ten thousand
columns and rows. A layout is moved into the middle of the view before it is stored, and then they do so no more; but the
sides of boxes are so far apart that they stay on their sides of each other (`Transform.LiesAt.encloses_moved`).
-/

namespace Whiteboard

open Single

/-! ## Boxes at whole coordinates -/

section

variable {a b : Float32} {k l : Int}

/-- The lesser of two whole numbers is exact. -/
theorem Single.Denotes.lesser (ha : Denotes a k) (hb : Denotes b l) : Denotes (lesser a b) (min k l : Int) := by
  have hlt : b < a ↔ l < k := (hb.lt_iff ha).trans Int.cast_lt
  rw [Whiteboard.lesser, ha.isNaN]
  by_cases h : l < k
  · simpa [hlt.2 h, min_eq_right h.le] using hb
  · simpa [mt hlt.1 h, min_eq_left (not_lt.1 h)] using ha

/-- The greater of two whole numbers is exact. -/
theorem Single.Denotes.greater (ha : Denotes a k) (hb : Denotes b l) : Denotes (greater a b) (max k l : Int) := by
  have hlt : a < b ↔ k < l := (ha.lt_iff hb).trans Int.cast_lt
  rw [Whiteboard.greater, ha.isNaN]
  by_cases h : k < l
  · simpa [hlt.2 h, max_eq_right h.le] using hb
  · simpa [mt hlt.1 h, max_eq_left (not_lt.1 h)] using ha

/-- What is left when the lesser, or the greater, of two numbers is taken time and again: one of them all, and none of them
is before it. -/
theorem denotes_foldl {op : Float32 → Float32 → Float32} {r : Int → Int → Prop} [Std.Refl r] [IsTrans Int r]
    (hop : ∀ {a b : Float32} {k l : Int}, Denotes a k → Denotes b l →
      ∃ m : Int, Denotes (op a b) m ∧ (m = k ∨ m = l) ∧ r m k ∧ r m l)
    {f : α → Float32} {v : α → Int} {xs : List α} (hxs : ∀ x ∈ xs, Denotes (f x) (v x)) (ha : Denotes a k) :
    ∃ m : Int, Denotes (xs.foldl (fun a x => op a (f x)) a) m ∧ (m = k ∨ ∃ x ∈ xs, m = v x) ∧
      r m k ∧ ∀ x ∈ xs, r m (v x) := by
  induction xs generalizing a k with
  | nil => exact ⟨k, ha, .inl rfl, refl k, by simp⟩
  | cons x xs ih =>
    obtain ⟨hx, hxs⟩ := List.forall_mem_cons.1 hxs
    obtain ⟨l, hl, hone, hlk, hlx⟩ := hop ha hx
    obtain ⟨m, hm, hof, hml, hle⟩ := ih hxs hl
    refine ⟨m, hm, ?_, IsTrans.trans _ _ _ hml hlk, List.forall_mem_cons.2 ⟨IsTrans.trans _ _ _ hml hlx, hle⟩⟩
    rcases hof with rfl | ⟨y, hy, rfl⟩
    · rcases hone with rfl | rfl
      · exact .inl rfl
      · exact .inr ⟨x, List.mem_cons_self, rfl⟩
    · exact .inr ⟨y, List.mem_cons_of_mem _ hy, rfl⟩

end

/-- A box at whole coordinates. -/
structure Frame where
  x : Int
  y : Int
  width : Int
  height : Int
  deriving DecidableEq, Repr, Inhabited

namespace Frame

/-- The coordinate of the right edge. -/
def right (f : Frame) : Int := f.x + f.width

/-- The coordinate of the lower edge. -/
def bottom (f : Frame) : Int := f.y + f.height

/-- The size as an area. -/
def area (f : Frame) : Int := f.width * f.height

/-- The box lies, and its size is, where single precision numbers stand for whole ones. -/
structure IsSmall (f : Frame) : Prop where
  x : -40 ≤ f.x ∧ f.x < 2 ^ 22
  y : -40 ≤ f.y ∧ f.y < 2 ^ 22
  width : 0 ≤ f.width ∧ f.width < 2 ^ 22
  height : 0 ≤ f.height ∧ f.height < 2 ^ 22

end Frame

namespace Transform

/-- The transform is the given box. -/
structure LiesAt (t : Transform) (f : Frame) : Prop where
  x : Denotes t.x f.x
  y : Denotes t.y f.y
  width : Denotes t.width f.width
  height : Denotes t.height f.height

namespace LiesAt

variable {t : Transform} {f : Frame}

/-- The right side of a small frame is exact. -/
theorem right (h : t.LiesAt f) (hf : f.IsSmall) : Denotes t.right f.right := by
  have hx := hf.x
  have hwidth := hf.width
  exact h.x.add h.width (abs_lt.2 ⟨by omega, by omega⟩)

/-- The lower side of a small frame is exact. -/
theorem bottom (h : t.LiesAt f) (hf : f.IsSmall) : Denotes t.bottom f.bottom := by
  have hy := hf.y
  have hheight := hf.height
  exact h.y.add h.height (abs_lt.2 ⟨by omega, by omega⟩)

end LiesAt

/-- The edges of a box around others, one by one. -/
theorem foldl_including (e : Edges) (ts : List Transform) :
    ts.foldl Edges.including e =
      ⟨ts.foldl (fun a t => lesser a t.x) e.left, ts.foldl (fun a t => lesser a t.y) e.top,
        ts.foldl (fun a t => greater a t.right) e.right, ts.foldl (fun a t => greater a t.bottom) e.bottom⟩ := by
  induction ts generalizing e with
  | nil => rfl
  | cons t ts ih => exact ih _

/-- The sides of the box around others: each is a side of one of these, and none of them is beyond it. -/
structure IsHull (fs : List Frame) (left top right bottom : Int) : Prop where
  left_eq : ∃ f ∈ fs, left = f.x
  left_le : ∀ f ∈ fs, left ≤ f.x
  top_eq : ∃ f ∈ fs, top = f.y
  top_le : ∀ f ∈ fs, top ≤ f.y
  right_eq : ∃ f ∈ fs, right = f.right
  le_right : ∀ f ∈ fs, f.right ≤ right
  bottom_eq : ∃ f ∈ fs, bottom = f.bottom
  le_bottom : ∀ f ∈ fs, f.bottom ≤ bottom

/-- The hull of small frames is not much larger than these. -/
theorem IsHull.bounds {fs : List Frame} {left top right bottom : Int} (h : IsHull fs left top right bottom)
    (hfs : ∀ f ∈ fs, f.IsSmall) :
    ((-40 ≤ left ∧ left < 2 ^ 22) ∧ left ≤ right ∧ right < 2 ^ 23) ∧
      (-40 ≤ top ∧ top < 2 ^ 22) ∧ top ≤ bottom ∧ bottom < 2 ^ 23 := by
  constructor
  · obtain ⟨f, hf, rfl⟩ := h.left_eq
    obtain ⟨g, hg, rfl⟩ := h.right_eq
    have hleft := h.left_le g hg
    have hf := (hfs f hf).x
    have hg' := (hfs g hg).x
    have hwidth := (hfs g hg).width
    rw [Frame.right]
    omega
  · obtain ⟨f, hf, rfl⟩ := h.top_eq
    obtain ⟨g, hg, rfl⟩ := h.bottom_eq
    have htop := h.top_le g hg
    have hf := (hfs f hf).y
    have hg' := (hfs g hg).y
    have hheight := (hfs g hg).height
    rw [Frame.bottom]
    omega

/-- The edges of the box around boxes at whole coordinates. -/
theorem exists_edgesOf {t : α → Transform} {v : α → Frame} {x : α} {xs : List α}
    (h : ∀ y ∈ x :: xs, (t y).LiesAt (v y) ∧ (v y).IsSmall) :
    ∃ left top right bottom : Int, Denotes (edgesOf (t x) (xs.map t)).left left ∧
      Denotes (edgesOf (t x) (xs.map t)).top top ∧ Denotes (edgesOf (t x) (xs.map t)).right right ∧
      Denotes (edgesOf (t x) (xs.map t)).bottom bottom ∧ IsHull ((x :: xs).map v) left top right bottom := by
  obtain ⟨⟨hx, hxsmall⟩, hxs⟩ := List.forall_mem_cons.1 h
  have hlesser : ∀ {a b : Float32} {k l : Int}, Denotes a k → Denotes b l →
      ∃ m : Int, Denotes (lesser a b) m ∧ (m = k ∨ m = l) ∧ m ≤ k ∧ m ≤ l := fun ha hb =>
    ⟨_, ha.lesser hb, min_choice _ _, min_le_left _ _, min_le_right _ _⟩
  have hgreater : ∀ {a b : Float32} {k l : Int}, Denotes a k → Denotes b l →
      ∃ m : Int, Denotes (greater a b) m ∧ (m = k ∨ m = l) ∧ m ≥ k ∧ m ≥ l := fun ha hb =>
    ⟨_, ha.greater hb, max_choice _ _, le_max_left _ _, le_max_right _ _⟩
  obtain ⟨left, hleft, hleft_eq, hleft_le, hleft_all⟩ := denotes_foldl hlesser (fun y hy => (hxs y hy).1.x) hx.x
  obtain ⟨top, htop, htop_eq, htop_le, htop_all⟩ := denotes_foldl hlesser (fun y hy => (hxs y hy).1.y) hx.y
  obtain ⟨right, hright, hright_eq, hright_le, hright_all⟩ :=
    denotes_foldl hgreater (fun y hy => (hxs y hy).1.right (hxs y hy).2) (hx.right hxsmall)
  obtain ⟨bottom, hbottom, hbottom_eq, hbottom_le, hbottom_all⟩ :=
    denotes_foldl hgreater (fun y hy => (hxs y hy).1.bottom (hxs y hy).2) (hx.bottom hxsmall)
  rw [edgesOf, foldl_including]
  simp only [List.foldl_map]
  exact ⟨left, top, right, bottom, hleft, htop, hright, hbottom, {
    left_eq := by simpa using hleft_eq
    left_le := by simpa using ⟨hleft_le, hleft_all⟩
    top_eq := by simpa using htop_eq
    top_le := by simpa using ⟨htop_le, htop_all⟩
    right_eq := by simpa using hright_eq
    le_right := by simpa using ⟨hright_le, hright_all⟩
    bottom_eq := by simpa using hbottom_eq
    le_bottom := by simpa using ⟨hbottom_le, hbottom_all⟩ }⟩

end Transform

/-! ## The grid -/

/-- A cell of the grid that a layout fills. -/
structure Cell where
  column : Nat
  row : Nat
  deriving DecidableEq, Repr

namespace Layout

/-- The distance between columns. -/
def columnStep (d : Direction) : Nat := if d.isHorizontal then 260 else 220

/-- The distance between rows. -/
def rowStep (d : Direction) : Nat := if d.isHorizontal then 120 else 160

/-- The cell of a placed node. Layers are columns or rows, as the direction goes, and they are counted from the last one where
it is reversed. -/
def cellOf (s : Skeleton) (p : PlacedNode) : Cell :=
  let layer := if s.direction.isReversed then lastLayer s - p.layer else p.layer
  if s.direction.isHorizontal then ⟨layer, p.slot⟩ else ⟨p.slot, layer⟩

/-- The box of a node in a cell. -/
def nodeFrame (d : Direction) (c : Cell) : Frame where
  x := columnStep d * c.column
  y := rowStep d * c.row
  width := 160
  height := 60

/-- No column and no row is numbered higher than single precision numbers can tell apart. -/
def FitsGrid (s : Skeleton) : Prop :=
  ∀ p ∈ ({} : Layout).placed s, (cellOf s p).column < 10000 ∧ (cellOf s p).row < 10000

/-- Where the boxes of cells in a small grid begin. -/
theorem nodeFrame_bounds (d : Direction) {c : Cell} (hcolumn : c.column < 10000) (hrow : c.row < 10000) :
    (0 ≤ (nodeFrame d c).x ∧ (nodeFrame d c).x ≤ 2600000) ∧
      0 ≤ (nodeFrame d c).y ∧ (nodeFrame d c).y ≤ 1600000 := by
  have hsteps : columnStep d ≤ 260 ∧ rowStep d ≤ 160 := by cases d <;> decide
  have hx : columnStep d * c.column ≤ 260 * 10000 := Nat.mul_le_mul hsteps.1 hcolumn.le
  have hy : rowStep d * c.row ≤ 160 * 10000 := Nat.mul_le_mul hsteps.2 hrow.le
  simp only [nodeFrame]
  omega

/-- The boxes of cells in a small grid are small. -/
theorem isSmall_nodeFrame (d : Direction) {c : Cell} (hcolumn : c.column < 10000) (hrow : c.row < 10000) :
    (nodeFrame d c).IsSmall := by
  obtain ⟨hx, hy⟩ := nodeFrame_bounds d hcolumn hrow
  exact ⟨by omega, by omega, by simp only [nodeFrame]; decide, by simp only [nodeFrame]; decide⟩

/-- A placed node lies in its cell. -/
theorem liesAt_placed {s : Skeleton} {p : PlacedNode} (hp : p ∈ ({} : Layout).placed s)
    (hcolumn : (cellOf s p).column < 10000) (hrow : (cellOf s p).row < 10000) :
    p.transform.LiesAt (nodeFrame s.direction (cellOf s p)) := by
  have hwide : Denotes (160 + 100) (260 : Int) := by decide +kernel
  have hlow : Denotes (60 + 60) (120 : Int) := by decide +kernel
  have hnarrow : Denotes (160 + 60) (220 : Int) := by decide +kernel
  have hhigh : Denotes (60 + 100) (160 : Int) := by decide +kernel
  have hwidth : Denotes 160 (160 : Int) := by decide +kernel
  have hheight : Denotes 60 (60 : Int) := by decide +kernel
  have hmul : ∀ {n step : Nat} {x : Float32}, n < 10000 → step ≤ 260 → Denotes x (step : Int) →
      Denotes (Float32.ofNat n * x) (step * n : Int) := by
    intro n step x hn hstep hx
    have hle : n * step ≤ 10000 * 260 := Nat.mul_le_mul hn.le hstep
    have hof : Denotes (Float32.ofNat n) (n : Int) := by exact_mod_cast denotes_ofNat (by omega)
    rw [mul_comm (step : Int)]
    exact hof.mul hx (by rw [← Nat.cast_mul, Nat.abs_cast]; omega)
  rw [transform_of_mem_placed hp]
  rw [cellOf] at hcolumn hrow ⊢
  rw [place, nodeFrame, columnStep, rowStep]
  cases hdirection : s.direction.isHorizontal with
  | true =>
    simp only [hdirection, if_true] at hcolumn hrow ⊢
    exact ⟨hmul hcolumn (by decide) hwide, hmul hrow (by decide) hlow, hwidth, hheight⟩
  | false =>
    simp only [hdirection, if_false, Bool.false_eq_true] at hcolumn hrow ⊢
    exact ⟨hmul hcolumn (by decide) hnarrow, hmul hrow (by decide) hhigh, hwidth, hheight⟩

/-! ## The boxes of groups -/

/-- The least value of `f` on some items. -/
def least (f : α → Nat) (xs : List α) : Nat := (xs.map f).min?.getD 0

/-- The greatest value of `f` on some items. -/
def greatest (f : α → Nat) (xs : List α) : Nat := (xs.map f).max?.getD 0

section

variable {f : α → Nat} {xs : List α}

theorem exists_least (h : xs ≠ []) : ∃ x ∈ xs, f x = least f xs := by
  cases hmin : (xs.map f).min? with
  | none => exact absurd (List.min?_eq_none_iff.1 hmin) (by simpa using h)
  | some m =>
    rw [least, hmin]
    exact List.mem_map.1 (List.min?_mem hmin)

theorem least_le {x : α} (hx : x ∈ xs) : least f xs ≤ f x := by
  cases hmin : (xs.map f).min? with
  | none => exact absurd (List.min?_eq_none_iff.1 hmin) (List.ne_nil_of_mem (List.mem_map_of_mem hx))
  | some m =>
    rw [least, hmin]
    exact (List.min?_eq_some_iff.1 hmin).2 _ (List.mem_map_of_mem hx)

theorem exists_greatest (h : xs ≠ []) : ∃ x ∈ xs, f x = greatest f xs := by
  cases hmax : (xs.map f).max? with
  | none => exact absurd (List.max?_eq_none_iff.1 hmax) (by simpa using h)
  | some m =>
    rw [greatest, hmax]
    exact List.mem_map.1 (List.max?_mem hmax)

theorem le_greatest {x : α} (hx : x ∈ xs) : f x ≤ greatest f xs := by
  cases hmax : (xs.map f).max? with
  | none => exact absurd (List.max?_eq_none_iff.1 hmax) (List.ne_nil_of_mem (List.mem_map_of_mem hx))
  | some m =>
    rw [greatest, hmax]
    exact (List.max?_eq_some_iff.1 hmax).2 _ (List.mem_map_of_mem hx)

end

/-- The box around nodes in the given cells. -/
def groupFrame (d : Direction) (cells : List Cell) : Frame where
  x := columnStep d * least Cell.column cells - 40
  y := rowStep d * least Cell.row cells - 40
  width := max (columnStep d * (greatest Cell.column cells - least Cell.column cells) + 240) 300
  height := max (rowStep d * (greatest Cell.row cells - least Cell.row cells) + 140) 300

/-- The width from side to side, padded on both of them. -/
theorem width_groupFrame (d : Direction) (cells : List Cell) :
    (groupFrame d cells).width = max (columnStep d * greatest Cell.column cells + 160 -
      columnStep d * least Cell.column cells + 80 : Int) 300 := by
  rw [groupFrame]
  ring_nf

/-- The height of a box around cells, by the rows of these. -/
theorem height_groupFrame (d : Direction) (cells : List Cell) :
    (groupFrame d cells).height = max (rowStep d * greatest Cell.row cells + 60 -
      rowStep d * least Cell.row cells + 80 : Int) 300 := by
  rw [groupFrame]
  ring_nf

/-- The box around nodes in the given cells reaches another cell: it is between them, or in the row that comes after
their only one. A box is high enough for two rows. -/
structure Reaches (cells : List Cell) (c : Cell) : Prop where
  nonempty : cells ≠ []
  column : least Cell.column cells ≤ c.column ∧ c.column ≤ greatest Cell.column cells
  row : least Cell.row cells ≤ c.row ∧ c.row ≤ max (greatest Cell.row cells) (least Cell.row cells + 1)

instance (cells : List Cell) (c : Cell) : Decidable (Reaches cells c) :=
  decidable_of_iff (cells ≠ [] ∧ (least Cell.column cells ≤ c.column ∧ c.column ≤ greatest Cell.column cells) ∧
      least Cell.row cells ≤ c.row ∧ c.row ≤ max (greatest Cell.row cells) (least Cell.row cells + 1))
    ⟨fun h => ⟨h.1, h.2.1, h.2.2⟩, fun h => ⟨h.nonempty, h.column, h.row⟩⟩

/-- Cells reach each of their own. -/
theorem reaches_of_mem {cells : List Cell} {c : Cell} (h : c ∈ cells) : Reaches cells c where
  nonempty := List.ne_nil_of_mem h
  column := ⟨least_le h, le_greatest h⟩
  row := ⟨least_le h, le_max_of_le_left (le_greatest h)⟩

/-- The members of a group, as they are placed. -/
def members (s : Skeleton) (g : String) : List PlacedNode := (({} : Layout).placed s).filter (·.node.group? == some g)

/-- The cells of the members of a group. -/
def cellsOf (s : Skeleton) (g : String) : List Cell := (members s g).map (cellOf s)

/-- The cells of a group lie in the grid. -/
theorem cell_bounds {s : Skeleton} (hgrid : FitsGrid s) {g : String} {c : Cell} (hc : c ∈ cellsOf s g) :
    c.column < 10000 ∧ c.row < 10000 := by
  obtain ⟨p, hp, rfl⟩ := List.mem_map.1 hc
  exact hgrid p (List.mem_of_mem_filter hp)

/-- A later cell comes no earlier on the canvas. -/
theorem step_mono (step : Nat) {m n : Nat} (h : m ≤ n) : (step * m : Int) ≤ step * n := by
  exact_mod_cast Nat.mul_le_mul_left step h

/-- The sides of the box around nodes, by their cells. -/
theorem sides_of_isHull {d : Direction} {fs : List Frame} {cells : List Cell} (hcells : cells ≠ [])
    (hfs : ∀ f, f ∈ fs ↔ ∃ c ∈ cells, nodeFrame d c = f) {left top right bottom : Int}
    (h : Transform.IsHull fs left top right bottom) :
    left = columnStep d * least Cell.column cells ∧ top = rowStep d * least Cell.row cells ∧
      right = columnStep d * greatest Cell.column cells + 160 ∧ bottom = rowStep d * greatest Cell.row cells + 60 := by
  have hmem : ∀ c ∈ cells, nodeFrame d c ∈ fs := fun c hc => (hfs _).2 ⟨c, hc, rfl⟩
  refine ⟨le_antisymm ?_ ?_, le_antisymm ?_ ?_, le_antisymm ?_ ?_, le_antisymm ?_ ?_⟩
  · obtain ⟨c, hc, hleast⟩ := exists_least (f := Cell.column) hcells
    rw [← hleast]
    exact h.left_le _ (hmem c hc)
  · obtain ⟨f, hf, rfl⟩ := h.left_eq
    obtain ⟨c, hc, rfl⟩ := (hfs f).1 hf
    exact step_mono _ (least_le hc)
  · obtain ⟨c, hc, hleast⟩ := exists_least (f := Cell.row) hcells
    rw [← hleast]
    exact h.top_le _ (hmem c hc)
  · obtain ⟨f, hf, rfl⟩ := h.top_eq
    obtain ⟨c, hc, rfl⟩ := (hfs f).1 hf
    exact step_mono _ (least_le hc)
  · obtain ⟨f, hf, rfl⟩ := h.right_eq
    obtain ⟨c, hc, rfl⟩ := (hfs f).1 hf
    exact Int.add_le_add_right (step_mono _ (le_greatest hc)) 160
  · obtain ⟨c, hc, hgreatest⟩ := exists_greatest (f := Cell.column) hcells
    rw [← hgreatest]
    exact h.le_right _ (hmem c hc)
  · obtain ⟨f, hf, rfl⟩ := h.bottom_eq
    obtain ⟨c, hc, rfl⟩ := (hfs f).1 hf
    exact Int.add_le_add_right (step_mono _ (le_greatest hc)) 60
  · obtain ⟨c, hc, hgreatest⟩ := exists_greatest (f := Cell.row) hcells
    rw [← hgreatest]
    exact h.le_bottom _ (hmem c hc)

/-- The box of a group is not larger than the grid. -/
theorem groupFrame_bounds {d : Direction} {cells : List Cell} (hcells : cells ≠ [])
    (hgrid : ∀ c ∈ cells, c.column < 10000 ∧ c.row < 10000) :
    (columnStep d * greatest Cell.column cells : Int) ≤ 260 * 10000 ∧
    (rowStep d * greatest Cell.row cells : Int) ≤ 160 * 10000 ∧
    (columnStep d * least Cell.column cells : Int) ≤ columnStep d * greatest Cell.column cells ∧
    (rowStep d * least Cell.row cells : Int) ≤ rowStep d * greatest Cell.row cells := by
  have hsteps : columnStep d ≤ 260 ∧ rowStep d ≤ 160 := by cases d <;> decide
  obtain ⟨c, hc, hcolumn⟩ := exists_greatest (f := Cell.column) hcells
  obtain ⟨c', hc', hrow⟩ := exists_greatest (f := Cell.row) hcells
  refine ⟨?_, ?_, step_mono _ ?_, step_mono _ ?_⟩
  · rw [← hcolumn]
    exact_mod_cast Nat.mul_le_mul hsteps.1 (hgrid c hc).1.le
  · rw [← hrow]
    exact_mod_cast Nat.mul_le_mul hsteps.2 (hgrid c' hc').2.le
  · rw [← hcolumn]
    exact least_le hc
  · rw [← hrow]
    exact least_le hc'

/-- The box around cells in a small grid is small. -/
theorem isSmall_groupFrame {d : Direction} {cells : List Cell} (hcells : cells ≠ [])
    (hgrid : ∀ c ∈ cells, c.column < 10000 ∧ c.row < 10000) : (groupFrame d cells).IsSmall := by
  obtain ⟨hright, hbottom, hcolumns, hrows⟩ := groupFrame_bounds (d := d) hcells hgrid
  have hleft : (0 : Int) ≤ columnStep d * least Cell.column cells := by positivity
  have htop : (0 : Int) ≤ rowStep d * least Cell.row cells := by positivity
  constructor <;> simp only [groupFrame, mul_sub] <;> constructor <;> omega

/-- A member of a group lies in its cell. -/
theorem liesAt_member {s : Skeleton} (hgrid : FitsGrid s) {g : String} {p : PlacedNode} (hp : p ∈ members s g) :
    p.transform.LiesAt (nodeFrame s.direction (cellOf s p)) ∧ (nodeFrame s.direction (cellOf s p)).IsSmall := by
  have hplaced : p ∈ ({} : Layout).placed s := List.mem_of_mem_filter hp
  obtain ⟨hcolumn, hrow⟩ := hgrid p hplaced
  exact ⟨liesAt_placed hplaced hcolumn hrow, isSmall_nodeFrame _ hcolumn hrow⟩

/-- The boxes that the fold over the members of a group goes through. It starts from the first member and then goes over all
of them, so that one comes twice. -/
theorem mem_memberFrames {s : Skeleton} {g : String} {first : PlacedNode} (hfirst : first ∈ members s g) (f : Frame) :
    f ∈ (first :: members s g).map (fun p => nodeFrame s.direction (cellOf s p)) ↔
      ∃ c ∈ cellsOf s g, nodeFrame s.direction c = f := by
  rw [List.map_cons, List.mem_cons, cellsOf, List.mem_map]
  constructor
  · rintro (rfl | ⟨p, hp, rfl⟩)
    · exact ⟨_, List.mem_map_of_mem hfirst, rfl⟩
    · exact ⟨_, List.mem_map_of_mem hp, rfl⟩
  · rintro ⟨c, hc, rfl⟩
    obtain ⟨p, hp, rfl⟩ := List.mem_map.1 hc
    exact .inr ⟨p, hp, rfl⟩

/-- The box of a group with members lies around their cells. -/
theorem exists_containerBox {s : Skeleton} (hgrid : FitsGrid s) {g : String} (h : members s g ≠ []) :
    ∃ box, ({} : Layout).containerBox? ((members s g).map (·.transform)) = some box ∧
      box.LiesAt (groupFrame s.direction (cellsOf s g)) := by
  obtain ⟨first, rest, hmembers⟩ := List.exists_cons_of_ne_nil h
  have hfirst : first ∈ members s g := by
    rw [hmembers]
    exact List.mem_cons_self
  have hlies : ∀ p ∈ first :: members s g,
      p.transform.LiesAt (nodeFrame s.direction (cellOf s p)) ∧ (nodeFrame s.direction (cellOf s p)).IsSmall :=
    List.forall_mem_cons.2 ⟨liesAt_member hgrid hfirst, fun p hp => liesAt_member hgrid hp⟩
  have hcells : cellsOf s g ≠ [] := by simpa [cellsOf] using h
  obtain ⟨left, top, right, bottom, hleft, htop, hright, hbottom, hhull⟩ := Transform.exists_edgesOf hlies
  obtain ⟨rfl, rfl, rfl, rfl⟩ := sides_of_isHull hcells (mem_memberFrames hfirst) hhull
  obtain ⟨hright', hbottom', hcolumns, hrows⟩ := groupFrame_bounds (d := s.direction) hcells fun c hc => cell_bounds hgrid hc
  have hleft' : (0 : Int) ≤ columnStep s.direction * least Cell.column (cellsOf s g) := by positivity
  have htop' : (0 : Int) ≤ rowStep s.direction * least Cell.row (cellsOf s g) := by positivity
  have hpadding : Denotes ({} : Layout).groupPadding (40 : Int) := by decide +kernel
  have htwice : Denotes (2 * ({} : Layout).groupPadding) (80 : Int) := by decide +kernel
  have hside : Denotes containerSide (300 : Int) := by decide +kernel
  have hspan : ∀ {a b : Float32} {k l : Int}, Denotes a k → Denotes b l → 0 ≤ k - l → k - l < 2 ^ 22 →
      Denotes (greater (a - b + 2 * ({} : Layout).groupPadding) containerSide) (max (k - l + 80) 300 : Int) := by
    intro a b k l ha hb hle hlt
    exact ((ha.sub hb (abs_lt.2 ⟨by omega, by omega⟩)).add htwice (abs_lt.2 ⟨by omega, by omega⟩)).greater hside
  rw [hmembers] at hleft htop hright hbottom ⊢
  refine ⟨_, rfl, ⟨?_, ?_, ?_, ?_⟩⟩
  · exact hleft.sub hpadding (abs_lt.2 ⟨by omega, by omega⟩)
  · exact htop.sub hpadding (abs_lt.2 ⟨by omega, by omega⟩)
  · rw [width_groupFrame]
    exact hspan hright hleft (by omega) (by omega)
  · rw [height_groupFrame]
    exact hspan hbottom htop (by omega) (by omega)

/-- The box of a group goes around the box of a node, or one of its sides runs in front of the other one; and it is never a
close thing. -/
theorem reaches_or_clear (d : Direction) {cells : List Cell} (hcells : cells ≠ []) (c : Cell) :
    let f := groupFrame d cells
    let g := nodeFrame d c
    (Reaches cells c ∧ f.x + 40 ≤ g.x ∧ f.y + 40 ≤ g.y ∧ g.right + 40 ≤ f.right ∧ g.bottom + 40 ≤ f.bottom) ∨
    (¬ Reaches cells c ∧
      (g.x + 40 ≤ f.x ∨ g.y + 40 ≤ f.y ∨ f.right + 40 ≤ g.right ∨ f.bottom + 40 ≤ g.bottom)) := by
  obtain ⟨m, hm, -⟩ := exists_least (f := Cell.column) hcells
  have hcolumns := (least_le (f := Cell.column) hm).trans (le_greatest hm)
  have hrows := (least_le (f := Cell.row) hm).trans (le_greatest hm)
  have hiff : Reaches cells c ↔ (least Cell.column cells ≤ c.column ∧ c.column ≤ greatest Cell.column cells) ∧
      least Cell.row cells ≤ c.row ∧ c.row ≤ max (greatest Cell.row cells) (least Cell.row cells + 1) :=
    ⟨fun h => ⟨h.column, h.row⟩, fun h => ⟨hcells, h.1, h.2⟩⟩
  rw [hiff]
  simp only [groupFrame, nodeFrame, Frame.right, Frame.bottom]
  cases hdirection : d.isHorizontal <;> simp only [columnStep, rowStep, hdirection, if_true, if_false, Bool.false_eq_true]
  all_goals
    push_cast
    omega

end Layout

/-! ## Boxes that are moved -/

section

variable {a dx width : Float32} {k l : Int} {p : ℚ}

/-- A coordinate after a move. -/
theorem isNear_moved (ha : Denotes a k) (hk : -40 ≤ k ∧ k < 2 ^ 22) (hdx : Denotes dx p) (hp : |p| ≤ 2 ^ 24) :
    IsNear (a + dx) (k + p) 2 := by
  have hlow : ((-40 : Int) : ℚ) ≤ k := Int.cast_le.2 hk.1
  have hhigh : (k : ℚ) < (2 ^ 22 : Int) := Int.cast_lt.2 hk.2
  push_cast at hlow hhigh
  have hp := abs_le.1 hp
  have hsize : |(k : ℚ) + p| ≤ 2 ^ 24 + 2 ^ 22 := abs_le.2 ⟨by linarith, by linarith⟩
  have hnear := ha.isNear.add hdx.isNear (by linarith)
  rwa [add_zero, zero_add] at hnear

/-- The coordinate of the other side after a move. -/
theorem isNear_moved_side (ha : Denotes a k) (hk : -40 ≤ k ∧ k < 2 ^ 22) (hdx : Denotes dx p) (hp : |p| ≤ 2 ^ 24)
    (hwidth : Denotes width l) (hl : 0 ≤ l ∧ l < 2 ^ 22) : IsNear (a + dx + width) (k + l + p) 4 := by
  have hlow : ((-40 : Int) : ℚ) ≤ (k + l : Int) := Int.cast_le.2 (by omega)
  have hhigh : ((k + l : Int) : ℚ) < (2 ^ 23 : Int) := Int.cast_lt.2 (by omega)
  push_cast at hlow hhigh
  have hp' := abs_le.1 hp
  have hsize : |(k : ℚ) + p + l| ≤ 2 ^ 24 + 2 ^ 23 := abs_le.2 ⟨by linarith, by linarith⟩
  have hnear := (isNear_moved ha hk hdx hp).add hwidth.isNear (by linarith)
  rwa [add_zero, add_right_comm, show (2 : ℚ) + 2 = 4 by norm_num] at hnear

end

/-- Boxes that are moved alike enclose each other as they did, if rounding does not bridge the distances of their sides. -/
theorem Transform.LiesAt.encloses_moved {t u : Transform} {f g : Frame} (ht : t.LiesAt f) (hf : f.IsSmall)
    (hu : u.LiesAt g) (hg : g.IsSmall) {dx dy : Float32} {p q : ℚ} (hdx : Denotes dx p) (hp : |p| ≤ 2 ^ 24)
    (hdy : Denotes dy q) (hq : |q| ≤ 2 ^ 24) :
    (f.x + 40 ≤ g.x → f.y + 40 ≤ g.y → g.right + 40 ≤ f.right → g.bottom + 40 ≤ f.bottom →
      (t.moved dx dy).encloses (u.moved dx dy) = true) ∧
    (g.x + 40 ≤ f.x ∨ g.y + 40 ≤ f.y ∨ f.right + 40 ≤ g.right ∨ f.bottom + 40 ≤ g.bottom →
      (t.moved dx dy).encloses (u.moved dx dy) = false) := by
  have hless : ∀ {a b : Float32} {k l : Int} {p d : ℚ}, IsNear a (k + p) d → IsNear b (l + p) d → d ≤ 4 →
      (k + 40 ≤ l → a ≤ b) ∧ (l + 40 ≤ k → ¬ a ≤ b) := by
    intro a b k l p d ha hb hd
    refine ⟨fun h => ha.le hb ?_, fun h => ha.not_le hb ?_⟩
    · have h : ((k + 40 : Int) : ℚ) ≤ l := Int.cast_le.2 h
      push_cast at h
      linarith
    · have h : ((l + 40 : Int) : ℚ) ≤ k := Int.cast_le.2 h
      push_cast at h
      linarith
  obtain ⟨hleft, hleft'⟩ := hless (isNear_moved ht.x hf.x hdx hp) (isNear_moved hu.x hg.x hdx hp) (by norm_num)
  obtain ⟨htop, htop'⟩ := hless (isNear_moved ht.y hf.y hdy hq) (isNear_moved hu.y hg.y hdy hq) (by norm_num)
  obtain ⟨hright, hright'⟩ := hless (k := g.right) (l := f.right) (d := 4)
    (by simpa [Frame.right] using isNear_moved_side hu.x hg.x hdx hp hu.width hg.width)
    (by simpa [Frame.right] using isNear_moved_side ht.x hf.x hdx hp ht.width hf.width) le_rfl
  obtain ⟨hbottom, hbottom'⟩ := hless (k := g.bottom) (l := f.bottom) (d := 4)
    (by simpa [Frame.bottom] using isNear_moved_side hu.y hg.y hdy hq hu.height hg.height)
    (by simpa [Frame.bottom] using isNear_moved_side ht.y hf.y hdy hq ht.height hf.height) le_rfl
  constructor
  · intro hx hy hr hb
    simp only [encloses, Bool.and_eq_true, decide_eq_true_eq]
    exact ⟨⟨⟨hleft hx, htop hy⟩, hright hr⟩, hbottom hb⟩
  · intro h
    simp only [encloses, Bool.and_eq_false_iff, decide_eq_false_iff_not]
    rcases h with hx | hy | hr | hb
    · exact .inl (.inl (.inl (hleft' hx)))
    · exact .inl (.inl (.inr (htop' hy)))
    · exact .inl (.inr (hright' hr))
    · exact .inr (hbottom' hb)

end Whiteboard
