import Whiteboard.Proofs.Diagram.Occurrence
import Whiteboard.Proofs.Ids.Nodes
import Whiteboard.Proofs.Lint.Forbidden
import Whiteboard.Proofs.Validation.Pipeline

/-!
# What the checks rule out

A text that passes the linting holds no forbidden keyword as a word of its own, and in one whose ids are accepted no node
has a reserved word as its id. Main statement: so no node of an accepted text has an id at which a line would be read as
something else than a statement, but for two keywords that neither check knows (`Pipeline.notMem_lineKeywords_of_validate`).
-/

namespace Whiteboard

open Text

namespace Lint

/-- A text that is fine holds no forbidden keyword. -/
theorem find?_eq_none_of_isOk {options : Options} {text : String} (h : (report options text).isOk = true) {keyword : String}
    (hkeyword : keyword ∈ options.forbidden) (hne : keyword ≠ "") {line : List Char} (hline : line ∈ lines text.toList) :
    Keyword.find? keyword.toList line = none := by
  obtain ⟨i, hi⟩ := List.mem_iff_getElem?.1 hline
  have hobjections := objections_eq options hne (mem_numberedLines_iff.2 ⟨i, hi, rfl⟩ : ⟨i + 1, line⟩ ∈ _)
  have hnone : (report options text).objections keyword (i + 1) = [] := by
    rw [Report.isOk, Bool.not_eq_true', List.any_eq_false] at h
    rw [Report.objections, Report.errors, List.filter_eq_nil_iff.2 h, List.filter_nil]
  rw [hnone] at hobjections
  cases hfind : Keyword.find? keyword.toList line with
  | none => rfl
  | some passed =>
    rw [hfind, Option.elim_some, eq_comm, List.replicate_eq_nil_iff] at hobjections
    exact absurd hobjections (List.count_pos_iff.2 hkeyword).ne'

end Lint

namespace Ids

/-- The nodes of a text whose ids are fine. -/
theorem of_isOk {options : Options} {text : String} (h : (check options text).isOk = true) :
    ∀ n ∈ (Document.parse text).nodes, options.Allows readPattern n := by
  rw [Report.isOk, List.isEmpty_iff] at h
  simp only [check, checkBy, checkDocumentBy, List.append_eq_nil_iff] at h
  exact checkNodes_eq_nil_iff.1 h.1.1.1.1

end Ids

/-- The keywords at which a line is read as a header, although the linting does not forbid them and no check reserves
them. -/
def overlookedKeywords : List String := ["C4Container", "C4Component"]

/-- Every keyword that a node could be named by is reserved, forbidden or overlooked. -/
theorem lineKeyword_cases {id : String} (h : id ∈ lineKeywords) (hword : IsWord id) :
    Ids.isReserved Ids.defaultReserved id = true ∨ id ∈ Lint.defaultForbidden ∨ id ∈ overlookedKeywords := by
  have hall : ∀ k ∈ lineKeywords, IsWord k →
      Ids.isReserved Ids.defaultReserved k = true ∨ k ∈ Lint.defaultForbidden ∨ k ∈ overlookedKeywords := by
    decide +kernel
  exact hall id h hword

namespace Pipeline

/-- In a text that passes the checks of a mode no line is read as something else because it begins with the id of a node,
unless that id is one of the overlooked keywords. -/
theorem notMem_lineKeywords_of_validate {mode : ApplyMode} {live : LiveIds} {text : String}
    {warnings : List Lint.Violation} (h : (forMode {} mode live).validate text = .ok warnings) {id : String}
    (hid : id ∈ (Document.parse text).nodeIds) (hoverlooked : id ∉ overlookedKeywords) : id ∉ lineKeywords := by
  obtain ⟨⟨hlint, hids, -⟩, -⟩ := validate_eq_ok_iff.1 h
  rw [passes_linting_iff] at hlint
  rw [passes_validatingIds_iff] at hids
  obtain ⟨n, hn, rfl⟩ := List.mem_map.1 hid
  have hword : IsWord n.id := ((Document.wellFormed_parse_any text).node n hn).id_word
  intro hkeyword
  rcases lineKeyword_cases hkeyword hword with hreserved | hforbidden | hmem
  · have hdefault : (forMode {} mode live).ids.reserved = Ids.defaultReserved := by cases mode <;> rfl
    have hnot := (Ids.of_isOk hids n hn).unreserved
    rw [hdefault, hreserved] at hnot
    cases hnot
  · obtain ⟨line, hline, hstands⟩ := Document.standsIn_of_mem_nodeIds hid
    have hnone := Lint.find?_eq_none_of_isOk hlint hforbidden hword.1 hline
    have hsome := Keyword.isSome_find?_of_standsIn hword.toList_ne_nil hstands
    rw [hnone] at hsome
    cases hsome
  · exact hoverlooked hmem

end Pipeline

end Whiteboard
