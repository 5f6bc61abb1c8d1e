import EvalOrder.Proofs.Comparing
import EvalOrder.Settings.Complaints

/-!
# Collecting complaints

Complaints that are put in order by sorting meet what a check of settings relies on: none is lost, and they fail to be
put in order only if the keys of two of them have no order. It is kept, complaint by complaint, that those about unknown
keys are among all.

Results:
* `add_error`, `addAll_error`: what keeps a complaint from being added.
* **`lawful_collected`**: complaints that are collected by sorting can be relied on.
-/

namespace EvalOrder

namespace Complaints

/-- Keys fail to be ordered for one reason. -/
theorem keyBefore_error {a b : Value} {u : Unordered} (h : keyBefore a b = .error u) :
    u = ⟨a, b⟩ ∧ a.less? b = none := by
  unfold keyBefore at h
  split at h
  · cases h
  · cases h
  · split at h
    · cases h
    · rename_i hless
      exact ⟨(Except.error.inj h).symm, hless⟩

theorem sort_error {cs left : List (Value × Complaint)} {u : Unordered} (h : sort cs = .error (u, left)) :
    Sorting.Fails before cs u :=
  Sorting.runSort_error h

theorem unknown_append_subset {cs : Complaints} (hcs : cs.unknown ⊆ cs.all) (c : Value × Complaint) :
    cs.unknown ++ [c] ⊆ cs.all ++ [c] :=
  List.append_subset.mpr ⟨List.subset_append_of_subset_left _ hcs, List.subset_append_right _ _⟩

theorem add_error {cs : Complaints} (hcs : cs.unknown ⊆ cs.all) {c : Value × Complaint} {u : Unordered}
    (h : cs.add c = .error u) : Sorting.Fails before (cs.all ++ [c]) u := by
  unfold add at h
  split at h
  · cases h
  · rename_i hr _
    cases h
    exact sort_error hr
  · split at h
    · rename_i hr
      cases h
      exact (sort_error hr).mono (unknown_append_subset hcs c)
    · cases h
  · cases h

/-- A complaint about an unknown key is the new one or was there. -/
theorem unknown_add {cs cs' : Complaints} {c : Value × Complaint} (h : cs.add c = .ok cs') :
    cs'.unknown ⊆ cs.unknown ++ [c] := by
  unfold add at h
  split at h
  · cases h
    exact List.subset_append_left _ _
  · cases h
  · have hperm : (sort (cs.unknown ++ [c])).items.Perm (cs.unknown ++ [c]) := Sorting.perm_runSort _ _
    split at h
    · cases h
    · rename_i unknown hr
      rw [hr] at hperm
      cases h
      exact hperm.subset
  · cases h
    exact List.subset_append_left _ _

/-- Complaints about unknown keys stay among all complaints. -/
theorem unknown_subset_add {cs cs' : Complaints} (hcs : cs.unknown ⊆ cs.all) {c : Value × Complaint}
    (h : cs.add c = .ok cs') : cs'.unknown ⊆ cs'.all := by
  intro x hx
  exact (perm_of_add h).symm.subset (unknown_append_subset hcs c (unknown_add h hx))

theorem addAll_error {more : List (Value × Complaint)} {cs : Complaints} (hcs : cs.unknown ⊆ cs.all)
    {u : Unordered} (h : cs.addAll more = .error u) : Sorting.Fails before (cs.all ++ more) u := by
  induction more generalizing cs with
  | nil => cases h
  | cons c more ih =>
    unfold addAll at h
    split at h
    · rename_i u' hadd
      cases h
      rw [List.append_cons]
      exact (add_error hcs hadd).mono (List.subset_append_left _ _)
    · rename_i cs' hadd
      refine (ih (unknown_subset_add hcs hadd) h).mono ?_
      rw [List.append_cons]
      exact ((perm_of_add hadd).append_right more).subset

/-- Complaints that are put in order by sorting can be relied on. -/
theorem lawful_collected : Collect.Lawful collected := by
  refine ⟨perm_of_collected, fun {drawn u} h => ?_⟩
  have hadd : ({} : Complaints).addAll drawn = .error u := Sorting.eq_error_of_map h
  obtain ⟨a, ha, b, hb, hab⟩ := addAll_error (List.nil_subset _) hadd
  obtain ⟨rfl, hless⟩ := keyBefore_error hab
  exact ⟨List.mem_map_of_mem ha, List.mem_map_of_mem hb, hless⟩

end Complaints

end EvalOrder
