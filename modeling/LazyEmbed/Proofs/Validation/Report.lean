import LazyEmbed.Proofs.Text.Reading
import LazyEmbed.Validation.Report
import Mathlib.Data.List.Nodup

/-!
# The order of a report

If no two findings are of one page, sorting puts them in strictly ascending order of their names and
loses none. A list in that order is known by its elements.
-/

namespace LazyEmbed.Validation

variable {findings others : List Finding}

theorem Finding.le_total_source (a b : Finding) :
    (decide (a.source ≤ b.source) || decide (b.source ≤ a.source)) = true := by
  simpa using List.le_total a.source b.source

theorem Finding.le_trans_source (a b c : Finding) (hab : decide (a.source ≤ b.source) = true)
    (hbc : decide (b.source ≤ c.source) = true) : decide (a.source ≤ c.source) = true :=
  decide_eq_true (List.le_trans (of_decide_eq_true hab) (of_decide_eq_true hbc))

def IsAscending (findings : List Finding) : Prop := findings.Pairwise fun a b => a.source < b.source

theorem mem_sortFindings {finding : Finding} :
    finding ∈ sortFindings findings ↔ finding ∈ findings :=
  (List.mergeSort_perm findings _).mem_iff

theorem isAscending_sortFindings (h : (findings.map (·.source)).Nodup) :
    IsAscending (sortFindings findings) := by
  have hsorted : (sortFindings findings).Pairwise fun a b => decide (a.source ≤ b.source) = true :=
    List.pairwise_mergeSort Finding.le_trans_source Finding.le_total_source findings
  have hnodup : ((sortFindings findings).map (·.source)).Nodup :=
    ((List.mergeSort_perm findings _).map _).nodup_iff.2 h
  have hapart : (sortFindings findings).Pairwise fun a b => a.source ≠ b.source :=
    List.pairwise_map.1 hnodup
  refine hsorted.imp₂ (fun a b hle hne => ?_) hapart
  exact Decidable.byContradiction fun hnot => hne (List.le_antisymm (of_decide_eq_true hle) hnot)

/-- Findings in this order are known by which there are. -/
theorem IsAscending.eq_of_mem_iff (h : IsAscending findings) (hothers : IsAscending others)
    (hsame : ∀ finding, finding ∈ findings ↔ finding ∈ others) : findings = others := by
  have hnodup : ∀ {list : List Finding}, IsAscending list → list.Nodup := by
    intro list hlist
    refine List.Pairwise.imp (fun {a b} hlt => ?_) hlist
    rintro rfl
    exact List.lt_irrefl _ hlt
  have hperm : findings.Perm others :=
    (List.perm_ext_iff_of_nodup (hnodup h) (hnodup hothers)).2 hsame
  refine hperm.eq_of_pairwise (fun a b _ _ hab hba => ?_) h hothers
  exact absurd (List.lt_trans hab hba) (List.lt_irrefl _)

theorem length_sortFindings (findings : List Finding) :
    (sortFindings findings).length = findings.length :=
  List.length_mergeSort findings

theorem issueCount_sortFindings (findings : List Finding) :
    issueCount (sortFindings findings) = issueCount findings :=
  ((List.mergeSort_perm findings _).flatMap_right _).length_eq

theorem sortFindings_eq_nil_iff : sortFindings findings = [] ↔ findings = [] := by
  rw [← List.length_eq_zero_iff, length_sortFindings, List.length_eq_zero_iff]

end LazyEmbed.Validation
