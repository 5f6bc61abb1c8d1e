import EvalOrder.Sorting.RunSort

/-!
# Why a sort fails

A sort asks nothing about the elements of a list but which of two is less. So it can fail only if there are two
elements that cannot be compared, and it fails with what comparing them says. Which pairs are met depends on the
list; that they are pairs of its elements is kept from the smallest search to the whole sort.

Results:
* `gallop_error`, `placeOf_error`, `firstRun_error`, `insertAll_error`: searching in a run and making one.
* `blames_run`, `mergeRuns_error`: merging two runs.
* **`runSort_error`**: sorting a list.
-/

namespace EvalOrder.Sorting

variable {α ε : Type} {lt : α → α → Except ε Bool} {e : ε}

/-- Two of the elements cannot be compared. -/
def Fails (lt : α → α → Except ε Bool) (xs : List α) (e : ε) : Prop :=
  ∃ a ∈ xs, ∃ b ∈ xs, lt a b = .error e

theorem Fails.mono {xs ys : List α} (h : Fails lt xs e) (hsub : xs ⊆ ys) : Fails lt ys e := by
  obtain ⟨a, ha, b, hb, hab⟩ := h
  exact ⟨a, hsub ha, b, hsub hb, hab⟩

/-! ## Searching -/

theorem eq_error_of_map {β γ : Type} {f : β → γ} {r : Except ε β} (h : r.map f = .error e) : r = .error e := by
  cases r with
  | ok b => cases h
  | error e' => exact congrArg Except.error (Except.error.inj h)

theorem negated_error {r : Except ε Bool} (h : negated r = .error e) : r = .error e := by
  cases r with
  | ok b => cases h
  | error e' => exact h

theorem bisect_error {p : Nat → Except ε Bool} {lo hi : Nat} (h : bisect p lo hi = .error e) :
    ∃ i, p i = .error e := by
  fun_induction bisect p lo hi with
  | case1 lo hi hlt mid e' hmid =>
    cases h
    exact ⟨mid, hmid⟩
  | case2 lo hi hlt mid hmid ih => exact ih h
  | case3 lo hi hlt mid hmid ih => exact ih h
  | case4 lo hi hlt => cases h

theorem reach_error {p : Nat → Except ε Bool} {most near far : Nat} (h : reach p most near far = .error e) :
    ∃ i, p i = .error e := by
  fun_induction reach p most near far with
  | case1 near far hlt e' hfar =>
    cases h
    exact ⟨far, hfar⟩
  | case2 near far hlt hfar ih => exact ih h
  | case3 near far hlt hfar => cases h
  | case4 near far hlt => cases h

theorem gallop_error {p : Nat → Except ε Bool} {n hint : Nat} (h : gallop p n hint = .error e) :
    ∃ i, p i = .error e := by
  unfold gallop at h
  split at h
  · rename_i e' hhint
    cases h
    exact ⟨hint, hhint⟩
  · split at h
    · rename_i e' hreach
      cases h
      obtain ⟨k, hk⟩ := reach_error hreach
      exact ⟨hint + k, hk⟩
    · exact bisect_error h
  · split at h
    · rename_i e' hreach
      cases h
      obtain ⟨k, hk⟩ := reach_error hreach
      exact ⟨hint - k, negated_error hk⟩
    · exact bisect_error h

theorem holdsAt_error {q : α → Except ε Bool} {xs : List α} {i : Nat} (h : holdsAt q xs.toArray i = .error e) :
    ∃ x ∈ xs, q x = .error e := by
  unfold holdsAt at h
  split at h
  · rename_i x hx
    exact ⟨x, List.mem_of_getElem? (by simpa using hx), h⟩
  · cases h

/-! ## Making runs -/

theorem ascent_error : ∀ {xs : List α} {x : α}, ascent lt x xs = .error e → Fails lt (x :: xs) e
  | [], x, h => by cases h
  | y :: ys, x, h => by
    unfold ascent at h
    split at h
    · rename_i e' hyx
      cases h
      exact ⟨y, by simp, x, by simp, hyx⟩
    · cases h
    · exact (ascent_error (eq_error_of_map h)).mono (List.subset_cons_self _ _)

theorem descent_error : ∀ {xs : List α} {x : α}, descent lt x xs = .error e → Fails lt (x :: xs) e
  | [], x, h => by cases h
  | y :: ys, x, h => by
    unfold descent at h
    split at h
    · rename_i e' hyx
      cases h
      exact ⟨y, by simp, x, by simp, hyx⟩
    · exact (descent_error (eq_error_of_map h)).mono (List.subset_cons_self _ _)
    · cases h

theorem firstRun_error {xs : List α} {x : α} (h : firstRun lt x xs = .error e) : Fails lt (x :: xs) e := by
  cases xs with
  | nil => cases h
  | cons y ys =>
    simp only [firstRun] at h
    split at h
    · rename_i e' hyx
      cases h
      exact ⟨y, by simp, x, by simp, hyx⟩
    · exact (descent_error (eq_error_of_map h)).mono (List.subset_cons_self _ _)
    · exact (ascent_error (eq_error_of_map h)).mono (List.subset_cons_self _ _)

theorem placeOf_error {run : List α} {x : α} (h : placeOf lt run x = .error e) : ∃ y ∈ run, lt x y = .error e := by
  obtain ⟨i, hi⟩ := bisect_error h
  obtain ⟨y, hy, hxy⟩ := holdsAt_error hi
  exact ⟨y, hy, negated_error hxy⟩

theorem insertAll_error : ∀ {xs run left : List α},
    insertAll lt run xs = .error (e, left) → Fails lt (run ++ xs) e
  | [], run, left, h => by cases h
  | x :: xs, run, left, h => by
    unfold insertAll at h
    split at h
    · rename_i e' hplace
      cases h
      obtain ⟨y, hy, hxy⟩ := placeOf_error hplace
      exact ⟨x, by simp, y, by simp [hy], hxy⟩
    · rename_i i hplace
      refine (insertAll_error h).mono (List.Perm.subset ?_)
      refine (List.perm_middle.append_right xs).trans ?_
      rw [List.take_append_drop, List.cons_append]
      exact List.perm_middle.symm

/-! ## Merging -/

/-- A merge that stops by failing does so on two of the elements. -/
def Stop.Blames (lt : α → α → Except ε Bool) (xs : List α) : Stop ε α → Prop
  | merged _ => True
  | failed e _ => Fails lt xs e

theorem Direction.takesSecond_error {d : Direction} {a b : α} (h : d.takesSecond lt a b = .error e) :
    Fails lt [a, b] e := by
  cases d with
  | forward => exact ⟨b, by simp, a, by simp, h⟩
  | backward => exact ⟨b, by simp, a, by simp, negated_error h⟩

theorem Direction.leading_error {d : Direction} {q : α → Except ε Bool} {xs : List α}
    (h : d.leading q xs = .error e) : ∃ x ∈ xs, q x = .error e := by
  cases d with
  | forward =>
    obtain ⟨i, hi⟩ := gallop_error h
    exact holdsAt_error hi
  | backward =>
    obtain ⟨i, hi⟩ := gallop_error (eq_error_of_map h)
    obtain ⟨x, hx, hqx⟩ := holdsAt_error hi
    exact ⟨x, List.mem_reverse.mp hx, negated_error hqx⟩

namespace Merge

variable {d : Direction} {xs : List α}

/-- A step stays among the elements: it goes on with them, or stops because of them. -/
def Stays {β : Type} (lt : α → α → Except ε Bool) (xs : List α) (view : β → List α) :
    Except (Stop ε α) β → Prop
  | .ok b => view b ⊆ xs
  | .error stop => stop.Blames lt xs

theorem Stays.bind {β γ : Type} {view : β → List α} {view' : γ → List α} {r : Except (Stop ε α) β}
    {f : β → Except (Stop ε α) γ} (h : Stays lt xs view r) (hf : ∀ b, view b ⊆ xs → Stays lt xs view' (f b)) :
    Stays lt xs view' (r >>= f) := by
  cases r with
  | error stop => exact h
  | ok b => exact hf b h

theorem stays_unlessComplete {m : Merge α} (h : m.items ⊆ xs) : Stays lt xs items (m.unlessComplete d) := by
  unfold unlessComplete
  split
  · trivial
  · exact h

theorem blames_of_unlessComplete {m : Merge α} (h : m.items ⊆ xs) {stop : Stop ε α}
    (hs : m.unlessComplete d = .error stop) : stop.Blames lt xs := by
  have hstays : Stays lt xs items (m.unlessComplete d) := stays_unlessComplete h
  rw [hs] at hstays
  exact hstays

theorem subset_of_unlessComplete {m m' : Merge α} (h : m.items ⊆ xs)
    (hs : (m.unlessComplete d : Except (Stop ε α) (Merge α)) = .ok m') : m'.items ⊆ xs := by
  unfold unlessComplete at hs
  split at hs
  · cases hs
  · obtain rfl := Except.ok.inj hs
    exact h

theorem stays_unlessFailed {β : Type} {m : Merge α} (h : m.items ⊆ xs) {r : Except ε β}
    (hr : ∀ e, r = .error e → Fails lt xs e) : Stays lt xs (fun _ => m.items) (m.unlessFailed d r) := by
  cases r with
  | ok b => exact h
  | error e => exact hr e rfl

theorem mem_items_of_first {m : Merge α} {a : α} (h : a ∈ m.first) : a ∈ m.items := by
  simp [items, h]

theorem mem_items_of_second {m : Merge α} {b : α} (h : b ∈ m.second) : b ∈ m.items := by
  simp [items, h]

/-- The next elements of the two parts are elements. -/
theorem fails_of_takesSecond {m : Merge α} (h : m.items ⊆ xs) {a b : α} (ha : a ∈ m.first) (hb : b ∈ m.second)
    (hab : d.takesSecond lt a b = .error e) : Fails lt xs e := by
  refine (Direction.takesSecond_error hab).mono fun x hx => ?_
  rcases (by simpa using hx : x = a ∨ x = b) with rfl | rfl
  · exact h (mem_items_of_first ha)
  · exact h (mem_items_of_second hb)

theorem stays_single {m : Merge α} (h : m.items ⊆ xs) : Stays lt xs (fun r => r.2.items) (m.single lt d) := by
  refine (stays_unlessFailed h fun e he => ?_).bind fun ofSecond _ => ?_
  · split at he
    · rename_i hfirst hsecond
      exact fails_of_takesSecond h (by simp [hfirst]) (by simp [hsecond]) he
    · cases he
  · have htaken : (if ofSecond then m.takeSecond 1 else m.takeFirst 1).items ⊆ xs := by
      split
      · exact List.Subset.trans (m.perm_takeSecond 1).subset h
      · exact List.Subset.trans (m.perm_takeFirst 1).subset h
    exact (stays_unlessComplete htaken).bind fun _ hm => hm

theorem stays_stretchOfFirst {m : Merge α} (h : m.items ⊆ xs) :
    Stays lt xs (fun r => r.2.items) (m.stretchOfFirst lt d) := by
  refine (stays_unlessFailed h fun e he => ?_).bind fun n _ => ?_
  · split at he
    · rename_i hsecond
      obtain ⟨a, ha, hab⟩ := Direction.leading_error he
      exact fails_of_takesSecond h ha (by simp [hsecond]) (negated_error hab)
    · cases he
  · refine (stays_unlessComplete (List.Subset.trans (m.perm_takeFirst n).subset h)).bind fun m' hm => ?_
    exact (stays_unlessComplete (List.Subset.trans (m'.perm_takeSecond 1).subset hm)).bind fun _ hm' => hm'

theorem stays_stretchOfSecond {m : Merge α} (h : m.items ⊆ xs) :
    Stays lt xs (fun r => r.2.items) (m.stretchOfSecond lt d) := by
  refine (stays_unlessFailed h fun e he => ?_).bind fun n _ => ?_
  · split at he
    · rename_i hfirst
      obtain ⟨b, hb, hab⟩ := Direction.leading_error he
      exact fails_of_takesSecond h (by simp [hfirst]) hb hab
    · cases he
  · refine (stays_unlessComplete (List.Subset.trans (m.perm_takeSecond n).subset h)).bind fun m' hm => ?_
    exact (stays_unlessComplete (List.Subset.trans (m'.perm_takeFirst 1).subset hm)).bind fun _ hm' => hm'

theorem blames_run : ∀ (steps : Nat) (mode : Mode) (patience : Nat) {m : Merge α}, m.items ⊆ xs →
    (run lt d steps mode patience m).1.Blames lt xs
  | 0, _, _, m, _ => trivial
  | steps + 1, .single ofFirst ofSecond, patience, m, h => by
    have hstep : Stays lt xs (fun r => r.2.items) (m.single lt d) := stays_single h
    unfold run
    split
    · rename_i stop hs
      rw [hs] at hstep
      exact hstep
    · rename_i isSecond m' hs
      rw [hs] at hstep
      have ih (mode : Mode) : (run lt d steps mode patience m').1.Blames lt xs := blames_run steps mode patience hstep
      simp only
      split <;> split <;> exact ih _
  | steps + 1, .stretches, patience, m, h => by
    have hstep : Stays lt xs (fun r => r.2.items) (m.stretchOfFirst lt d) := stays_stretchOfFirst h
    unfold run
    split
    · rename_i stop hs
      rw [hs] at hstep
      exact hstep
    · rename_i n m' hs
      rw [hs] at hstep
      have hstep' : Stays lt xs (fun r => r.2.items) (m'.stretchOfSecond lt d) := stays_stretchOfSecond hstep
      split
      · rename_i stop hs'
        rw [hs'] at hstep'
        exact hstep'
      · rename_i k m'' hs'
        rw [hs'] at hstep'
        split
        · exact blames_run steps _ _ hstep'
        · exact blames_run steps _ _ hstep'

end Merge

theorem blames_mergeParts (d : Direction) (patience : Nat) (first second : List α) :
    (mergeParts lt d patience first second).1.Blames lt (first ++ second) := by
  let m : Merge α := { first, second }
  cases d with
  | forward =>
    have hbegun : (m.takeSecond 1).items ⊆ first ++ second := (m.perm_takeSecond 1).subset
    simp only [mergeParts]
    split
    · rename_i stop hs
      exact Merge.blames_of_unlessComplete hbegun hs
    · rename_i m' hs
      exact Merge.blames_run _ _ _ (Merge.subset_of_unlessComplete hbegun hs)
  | backward =>
    have hbegun : (m.takeFirst 1).items ⊆ first ++ second := (m.perm_takeFirst 1).subset
    simp only [mergeParts]
    split
    · rename_i stop hs
      exact Merge.blames_of_unlessComplete hbegun hs
    · rename_i m' hs
      exact Merge.blames_run _ _ _ (Merge.subset_of_unlessComplete hbegun hs)

theorem Stop.eq_failed_of_arranged {d : Direction} {stop : Stop ε α} {left : List α}
    (h : stop.arranged d = .error (e, left)) : ∃ xs, stop = .failed e xs := by
  cases stop with
  | merged xs => cases h
  | failed e' xs =>
    cases h
    exact ⟨xs, rfl⟩

theorem mergeRest_error {patience : Nat} {first second left : List α}
    (h : (mergeRest lt patience first second).1 = .error (e, left)) : Fails lt (first ++ second) e := by
  unfold mergeRest at h
  simp only at h
  obtain ⟨xs, hstop⟩ := Stop.eq_failed_of_arranged h
  split at hstop
  · have hblames : (Stop.failed e xs).Blames lt (first ++ second) := by
      rw [← hstop]
      exact blames_mergeParts _ _ _ _
    exact hblames
  · have hblames : (Stop.failed e xs).Blames lt (first.reverse ++ second.reverse) := by
      rw [← hstop]
      exact blames_mergeParts _ _ _ _
    exact hblames.mono fun x hx => by simpa using hx

/-- Merging two runs fails on two of their elements. -/
theorem mergeRuns_error {patience : Nat} {xs ys left : List α}
    (h : (mergeRuns lt patience xs ys).1 = .error (e, left)) : Fails lt (xs ++ ys) e := by
  unfold mergeRuns at h
  simp only at h
  split at h
  · rename_i e' hplace
    cases h
    split at hplace
    · rename_i y ys
      obtain ⟨i, hi⟩ := gallop_error hplace
      obtain ⟨x, hx, hyx⟩ := holdsAt_error hi
      exact ⟨y, by simp, x, by simp [hx], negated_error hyx⟩
    · cases hplace
  · rename_i n hplace
    split at h
    · rename_i e' hreached
      cases h
      split at hreached
      · rename_i x hlast
        obtain ⟨i, hi⟩ := gallop_error hreached
        obtain ⟨y, hy, hyx⟩ := holdsAt_error hi
        have hx : x ∈ xs := List.mem_of_mem_drop (List.mem_of_getLast? hlast)
        exact ⟨y, by simp [hy], x, by simp [hx], hyx⟩
      · cases hreached
    · cases h
    · rename_i k hne hreached
      cases hrest : (mergeRest lt patience (xs.drop n) (ys.take k)).1 with
      | ok zs =>
        rw [hrest] at h
        cases h
      | error r =>
        rw [hrest] at h
        cases h
        refine (mergeRest_error hrest).mono fun x hx => ?_
        rcases List.mem_append.mp hx with hx | hx
        · exact List.mem_append_left _ (List.mem_of_mem_drop hx)
        · exact List.mem_append_right _ (List.mem_of_mem_take hx)

/-! ## Sorting -/

theorem mergeWaiting_error {patience : Nat} {front behind : List (Waiting α)} {x y left : List α}
    (h : mergeWaiting lt patience front x y behind = .error (e, left)) : Fails lt (x ++ y) e := by
  unfold mergeWaiting at h
  split at h
  · cases h
  · rename_i e' xs p hr
    cases h
    exact mergeRuns_error (congrArg Prod.fst hr)

theorem settle_error {power : Nat} : ∀ {steps patience : Nat} {waiting : List (Waiting α)} {left : List α},
    settle lt power steps patience waiting = .error (e, left) → Fails lt (itemsOf waiting) e
  | 0, _, _, _, h => by cases h
  | steps + 1, patience, waiting, left, h => by
    unfold settle at h
    split at h
    · rename_i y x front
      split at h
      · have hperm := perm_mergeWaiting lt patience front [] x.run y.run
        split at h
        · rename_i r hr
          cases h
          refine (mergeWaiting_error hr).mono ?_
          rw [itemsOf_cons, itemsOf_cons, List.append_assoc]
          exact List.subset_append_right _ _
        · rename_i ws p hr
          rw [hr] at hperm
          refine (settle_error h).mono (List.Subset.trans hperm.subset fun z hz => ?_)
          simpa [or_assoc] using hz
      · cases h
    · cases h

theorem settleAll_error : ∀ {steps patience : Nat} {waiting : List (Waiting α)} {left : List α},
    settleAll lt steps patience waiting = .error (e, left) → Fails lt (itemsOf waiting) e
  | 0, _, _, _, h => by cases h
  | steps + 1, patience, waiting, left, h => by
    unfold settleAll at h
    split at h
    · rename_i z y x front
      -- Whichever two of the last three runs are merged, they and the others are all there is.
      obtain ⟨front', x', y', behind', hmerged, hitems⟩ : ∃ front' x' y' behind',
          (if x.run.length < z.run.length then mergeWaiting lt patience front x.run y.run [z]
            else mergeWaiting lt patience (x :: front) y.run z.run []) =
              mergeWaiting lt patience front' x' y' behind' ∧
            itemsOf front' ++ (x' ++ y') ++ itemsOf behind' = itemsOf (z :: y :: x :: front) := by
        split
        · exact ⟨front, x.run, y.run, [z], rfl, by simp⟩
        · exact ⟨x :: front, y.run, z.run, [], rfl, by simp⟩
      have hperm := perm_mergeWaiting lt patience front' behind' x' y'
      rw [hitems] at hperm
      simp only [hmerged] at h
      split at h
      · rename_i r hr
        cases h
        refine (mergeWaiting_error hr).mono fun w hw => ?_
        rw [← hitems]
        exact List.mem_append_left _ (List.mem_append_right _ hw)
      · rename_i ws p hr
        rw [hr] at hperm
        exact (settleAll_error h).mono hperm.subset
    · rename_i y x
      exact (mergeWaiting_error h).mono fun z hz => by simpa using hz
    · cases h

theorem addRun_error {n patience : Nat} {waiting : List (Waiting α)} {run left : List α}
    (h : addRun lt n patience waiting run = .error (e, left)) : Fails lt (itemsOf waiting) e := by
  unfold addRun at h
  split at h
  · cases h
  · simp only at h
    split at h
    · rename_i e' xs hr
      cases h
      exact settle_error hr
    · cases h
    · cases h

theorem nextRun_error {least : Nat} {x : α} {xs left : List α}
    (h : nextRun lt least x xs = .error (e, left)) : Fails lt (x :: xs) e := by
  unfold nextRun at h
  split at h
  · rename_i e' hr
    cases h
    exact firstRun_error hr
  · rename_i run rest hr
    have hperm := perm_firstRun hr
    simp only at h
    split at h
    · rename_i e' ys hs
      cases h
      refine (insertAll_error hs).mono fun z hz => hperm.subset ?_
      rcases List.mem_append.mp hz with hz | hz
      · exact List.mem_append_left _ hz
      · exact List.mem_append_right _ (List.mem_of_mem_take hz)
    · cases h

theorem sortRest_error {n : Nat} : ∀ {steps patience : Nat} {waiting : List (Waiting α)} {xs left : List α},
    sortRest lt n steps patience waiting xs = .error (e, left) → Fails lt (itemsOf waiting ++ xs) e
  | 0, _, _, _, _, h => by cases h
  | steps + 1, patience, waiting, [], left, h => by
    exact (settleAll_error (eq_error_of_map h)).mono (List.subset_append_left _ _)
  | steps + 1, patience, waiting, x :: xs, left, h => by
    have hnext := perm_nextRun lt (leastRun n) x xs
    simp only [sortRest] at h
    split at h
    · rename_i e' ys hr
      cases h
      exact (nextRun_error hr).mono (List.subset_append_right _ _)
    · rename_i run rest hr
      rw [hr] at hnext
      have hadd := perm_addRun lt n patience waiting run
      split at h
      · rename_i e' ys hs
        cases h
        exact (addRun_error hs).mono (List.subset_append_left _ _)
      · rename_i ws p hs
        rw [hs] at hadd
        refine (sortRest_error h).mono ?_
        have hperm : (itemsOf ws ++ rest).Perm (itemsOf waiting ++ x :: xs) := by
          refine (hadd.append_right rest).trans ?_
          rw [List.append_assoc]
          exact hnext.append_left _
        exact hperm.subset

/-- **A sort fails** only if two elements of the list cannot be compared, and with what is said about two such. -/
theorem runSort_error {xs left : List α} (h : runSort lt xs = .error (e, left)) : Fails lt xs e :=
  sortRest_error h

end EvalOrder.Sorting
