import EvalOrder.Proofs.Recursion

/-!
# What a search sees

A search sees little of its graph. If no edge leads from an `opened` vertex to a white one that is not opened too,
a search that enters opened vertices only stays among them: it sees them and what they depend on, and changes their
colours and ranks alone (`Confined`). So two searches that begin with the same there go on alike (`Alike`), whatever
the two graphs hold elsewhere, and a vertex that is black when a search begins is left as it is. Vertices may be grey
from before without being on the stack; the two may also differ in these, until the first search comes to one and fails.

Results:
* `Confined.step`, `Confined.run`, `Confined.visitAll`: what a search leaves alone.
* `visitAll_of_black`: it leaves black vertices alone.
* `Avoids.leave`, `Avoids.follow`, `Avoids.enter`: a search that has not come to vertices grey from before.
* `Alike.step`, `Alike.run`, **`Alike.visitAll`**: searches that see the same do the same.
* `visitAll_append`: searching from some vertices and then from others.
* `recolored_sort`: sorting changes colours and ranks only, whatever it is given.
-/

namespace EvalOrder

namespace Graph

theorem labels_congr {g g' : Graph} {hs : List Handle} (h : ∀ i ∈ hs, g'.vertices[i]? = g.vertices[i]?) :
    g'.labels hs = g.labels hs := by
  have hlabel : ∀ i ∈ hs, g'.label i = g.label i := by
    intro i hi
    unfold label get
    rw [h i hi]
  unfold labels
  clear h
  induction hs with
  | nil => rfl
  | cons i hs ih =>
    obtain ⟨hi, hlabel⟩ := List.forall_mem_cons.mp hlabel
    rw [List.mapM_cons, List.mapM_cons, hi, ih hlabel]

/-- The second graph differs from the first in colours and ranks of opened vertices, none of which is made white. -/
structure Touches (opened : Handle → Prop) (g g' : Graph) : Prop where
  recolored : g.Recolored g'
  apart : ∀ h : Handle, ¬ opened h → g'.vertices[h]? = g.vertices[h]?
  white : ∀ h, g'.colorOf h = some .white → g.colorOf h = some .white

namespace Touches

variable {opened : Handle → Prop} {g g' g'' : Graph}

theorem refl (g : Graph) : g.Touches opened g := ⟨.refl g, fun _ _ => rfl, fun _ => id⟩

theorem trans (h : g.Touches opened g') (h' : g'.Touches opened g'') : g.Touches opened g'' where
  recolored := h.recolored.trans h'.recolored
  apart i hi := (h'.apart i hi).trans (h.apart i hi)
  white i hi := h.white i (h'.white i hi)

/-- Entering or leaving an opened vertex. -/
theorem update {h : Handle} (hopened : opened h) {f : Vertex → Vertex} (hf : ∀ v : Vertex, (f v).reset = v.reset)
    (hcolor : ∀ v : Vertex, (f v).color ≠ .white) : g.Touches opened (g.update h f) := by
  refine ⟨recolored_update g h hf, fun i hi => ?_, fun i hi => ?_⟩
  · rw [vertices_update, if_neg fun he : h = i => hi (he ▸ hopened)]
  · unfold colorOf at hi ⊢
    rw [vertices_update] at hi
    split at hi
    · rw [Option.map_map] at hi
      obtain ⟨v, -, hv⟩ := Option.map_eq_some_iff.mp hi
      exact absurd hv (hcolor v)
    · exact hi

end Touches

end Graph

namespace Search

open EvalOrder.Graph

variable {opened : Handle → Prop} {g g' : Graph} {rank : Nat} {top : Frame} {below : List Frame}

/-! ## What a search leaves alone -/

/-- The search enters opened vertices only: no others are on its stack, and where an edge leads from an opened vertex
to a white one, that is opened as well. -/
structure Confined (opened : Handle → Prop) (s : Search) : Prop where
  stack : ∀ f ∈ s.stack, opened f.vertex
  white : ∀ a b, opened a → s.graph.Edge a b → s.graph.colorOf b = some .white → opened b

namespace Confined

/-- With a graph that has been searched further, and opened vertices on the stack. -/
theorem touches {s : Search} (h : Confined opened s) (hg : s.graph.Touches opened g) {stack : List Frame}
    (hstack : ∀ f ∈ stack, opened f.vertex) (rank : Nat) : Confined opened ⟨g, stack, rank⟩ where
  stack := hstack
  white a b ha hab hb := h.white a b ha (hg.recolored.edge_eq ▸ hab) (hg.white b hb)

/-- One step. -/
theorem step (h : Confined opened ⟨g, top :: below, rank⟩) {s : Search} (hs : step g rank top below = .ok s) :
    Confined opened s ∧ g.Touches opened s.graph := by
  obtain ⟨htop, hbelow⟩ := List.forall_mem_cons.mp h.stack
  have htop : opened top.vertex := htop
  unfold Search.step at hs
  cases hv : g.get top.vertex with
  | error e =>
    rw [hv] at hs
    cases hs
  | ok v =>
    simp only [hv, bind, Except.bind] at hs
    split at hs
    · obtain rfl := Except.ok.inj hs
      have hleave : g.Touches opened (g.update top.vertex (Vertex.leave rank)) :=
        .update htop (Vertex.reset_leave rank) (by simp [Vertex.leave])
      exact ⟨h.touches hleave hbelow _, hleave⟩
    · rename_i t ht
      have hedge : g.Edge top.vertex t := by
        rw [Edge, relatedOf_eq (get_eq_ok_iff.mp hv)]
        exact List.mem_of_getElem? ht
      have hstack : ∀ f ∈ { top with followed := top.followed + 1 } :: below, opened f.vertex :=
        List.forall_mem_cons.mpr ⟨htop, hbelow⟩
      cases hw : g.get t with
      | error e =>
        simp only [hw] at hs
        cases hs
      | ok w =>
        simp only [hw] at hs
        split at hs
        · cases hs
        · obtain rfl := Except.ok.inj hs
          exact ⟨h.touches (.refl g) hstack _, .refl g⟩
        · rename_i hwhite
          obtain rfl := Except.ok.inj hs
          have ht : opened t := h.white _ _ htop hedge (by rw [colorOf_eq (get_eq_ok_iff.mp hw), hwhite])
          have henter : g.Touches opened (g.update t Vertex.enter) :=
            .update ht Vertex.reset_enter (by simp [Vertex.enter])
          exact ⟨h.touches henter (List.forall_mem_cons.mpr ⟨ht, hstack⟩) _, henter⟩

/-- A run of steps. -/
theorem run {s : Search} (h : Confined opened s) :
    Confined opened (Search.run s).1 ∧ s.graph.Touches opened (Search.run s).1.graph := by
  fun_induction Search.run s with
  | case1 => exact ⟨h, .refl _⟩
  | case2 => exact ⟨h, .refl _⟩
  | case3 s top below hs s' hstep ih =>
    obtain ⟨g, stack, rank⟩ := s
    obtain rfl : stack = top :: below := hs
    obtain ⟨hnext, htouches⟩ := h.step hstep
    obtain ⟨hend, htouches'⟩ := ih hnext
    exact ⟨hend, htouches.trans htouches'⟩

theorem visit (h : Confined opened ⟨g, [], rank⟩) {root : Handle}
    (hroot : g.colorOf root = some .white → opened root) :
    Confined opened (Search.visit g rank root).1 ∧ g.Touches opened (Search.visit g rank root).1.graph := by
  unfold Search.visit
  cases hv : g.get root with
  | error e => exact ⟨h, .refl g⟩
  | ok v =>
    simp only
    split
    · rename_i hwhite
      have hopened := hroot (by rw [colorOf_eq (get_eq_ok_iff.mp hv), hwhite])
      have henter : g.Touches opened (g.update root Vertex.enter) :=
        .update hopened Vertex.reset_enter (by simp [Vertex.enter])
      have hstack : ∀ f ∈ [(⟨root, 0⟩ : Frame)], opened f.vertex := by simpa using hopened
      obtain ⟨hend, htouches⟩ := (h.touches henter hstack rank).run
      exact ⟨hend, henter.trans htouches⟩
    · exact ⟨h, .refl g⟩

/-- Searches from several vertices, of which the white ones are opened. -/
theorem visitAll : ∀ {handles : List Handle} {g : Graph} {rank : Nat}, Confined opened ⟨g, [], rank⟩ →
    (∀ h ∈ handles, g.colorOf h = some .white → opened h) →
      Confined opened (Search.visitAll g rank handles).1 ∧
        g.Touches opened (Search.visitAll g rank handles).1.graph
  | [], g, rank, h, _ => ⟨h, .refl g⟩
  | root :: handles, g, rank, h, hroots => by
    obtain ⟨hroot, hroots⟩ := List.forall_mem_cons.mp hroots
    have hfirst := h.visit hroot
    unfold Search.visitAll
    generalize Search.visit g rank root = result at hfirst ⊢
    obtain ⟨s, outcome⟩ := result
    obtain ⟨hend, htouches⟩ := hfirst
    cases outcome with
    | error e => exact ⟨hend, htouches⟩
    | ok u =>
      have hstart : Confined opened ⟨s.graph, [], s.rank⟩ := hend.touches (.refl _) (by simp) _
      obtain ⟨hend', htouches'⟩ := hstart.visitAll fun i hi hw => hroots i hi (htouches.white i hw)
      exact ⟨hend', htouches.trans htouches'⟩

end Confined

/-- Every search stays among all vertices. -/
theorem confined_all (s : Search) : Confined (fun _ => True) s := ⟨fun _ _ => trivial, fun _ _ _ _ _ => trivial⟩

/-- A search leaves black vertices alone. -/
theorem visitAll_of_black (rank : Nat) (handles : List Handle) {h : Handle} (hblack : g.colorOf h = some .black) :
    (visitAll g rank handles).1.graph.vertices[h]? = g.vertices[h]? := by
  have hnot : ∀ {i : Handle}, g.colorOf i = some .white → g.colorOf i ≠ some .black := fun hw hb =>
    absurd (hw.symm.trans hb) (by decide)
  have hstart : Confined (fun i => g.colorOf i ≠ some .black) ⟨g, [], rank⟩ :=
    ⟨by simp, fun _ _ _ _ hw => hnot hw⟩
  exact (hstart.visitAll fun _ _ hw => hnot hw).2.apart h fun hne => hne hblack

/-! ## Vertices that are grey from before -/

/-- The search has not come to `stale` vertices. They are grey, though not on its stack; it has followed no edge to one,
and none leads there from an opened vertex that is black. -/
structure Avoids (opened stale : Handle → Prop) (s : Search) : Prop where
  grey : ∀ h, stale h → s.graph.colorOf h = some .grey
  apart : ∀ f ∈ s.stack, ¬ stale f.vertex
  followed : ∀ f ∈ s.stack, ∀ t ∈ (s.graph.relatedOf f.vertex).take f.followed, ¬ stale t
  left : ∀ a, opened a → s.graph.colorOf a = some .black → ∀ b, s.graph.Edge a b → ¬ stale b

/-- A search ends at a stale vertex, on which an opened one depends. -/
def Stumbles (opened stale : Handle → Prop) (g : Graph) (outcome : Except Failure Unit) : Prop :=
  ∃ a t, opened a ∧ g.Edge a t ∧ stale t ∧ outcome = .error (.fault (.notOnStack t))

/-- Where nothing is stale, no search ends so. -/
theorem not_stumbles {outcome : Except Failure Unit} : ¬ Stumbles opened (fun _ => False) g outcome :=
  fun ⟨_, _, _, _, hstale, _⟩ => hstale

namespace Avoids

variable {stale : Handle → Prop} {stack : List Frame} {v : Vertex} {t : Handle}

/-- Where nothing is stale. -/
theorem of_none (s : Search) : Avoids opened (fun _ => False) s :=
  ⟨fun _ h => h.elim, fun _ _ h => h, fun _ _ _ _ h => h, fun _ _ _ _ _ h => h⟩

/-- Leaving the innermost vertex, of which all edges were followed. -/
theorem leave (h : Avoids opened stale ⟨g, top :: below, rank⟩) (hv : g.vertices[top.vertex]? = some v)
    (ht : v.related[top.followed]? = none) :
    Avoids opened stale ⟨g.update top.vertex (Vertex.leave rank), below, rank + 1⟩ := by
  obtain ⟨htop, hbelow⟩ := List.forall_mem_cons.mp h.apart
  obtain ⟨hfollowed, hfollowed'⟩ := List.forall_mem_cons.mp h.followed
  have hsame := recolored_update g top.vertex (Vertex.reset_leave rank)
  have hcolor := colorOf_leave (lt_size hv) rank
  have hall : (g.relatedOf top.vertex).take top.followed = g.relatedOf top.vertex := by
    rw [relatedOf_eq hv]
    exact List.take_of_length_le (List.getElem?_eq_none_iff.mp ht)
  refine ⟨fun i hi => ?_, hbelow, fun f hf t ht => ?_, fun a ha hblack b hab => ?_⟩
  · have hne : top.vertex ≠ i := fun he => htop (he ▸ hi)
    rw [hcolor, if_neg hne]
    exact h.grey i hi
  · rw [hsame.relatedOf] at ht
    exact hfollowed' f hf t ht
  · rw [hsame.edge_eq] at hab
    by_cases he : top.vertex = a
    · subst he
      exact hfollowed b (hall.symm ▸ hab)
    · rw [hcolor, if_neg he] at hblack
      exact h.left a ha hblack b hab

/-- Following an edge that ends at no stale vertex. -/
theorem follow (h : Avoids opened stale ⟨g, top :: below, rank⟩) (hv : g.vertices[top.vertex]? = some v)
    (ht : v.related[top.followed]? = some t) (hne : ¬ stale t) :
    Avoids opened stale ⟨g, { top with followed := top.followed + 1 } :: below, rank⟩ := by
  obtain ⟨htop, hbelow⟩ := List.forall_mem_cons.mp h.apart
  obtain ⟨hfollowed, hfollowed'⟩ := List.forall_mem_cons.mp h.followed
  refine ⟨h.grey, List.forall_mem_cons.mpr ⟨htop, hbelow⟩, List.forall_mem_cons.mpr ⟨?_, hfollowed'⟩, h.left⟩
  intro i hi
  rw [relatedOf_eq hv, List.take_add_one, ht, Option.toList_some, List.mem_append, List.mem_singleton,
    ← relatedOf_eq hv] at hi
  rcases hi with hi | rfl
  · exact hfollowed i hi
  · exact hne

/-- Entering a white vertex. -/
theorem enter (h : Avoids opened stale ⟨g, stack, rank⟩) (ht : g.colorOf t = some .white) :
    Avoids opened stale ⟨g.update t Vertex.enter, ⟨t, 0⟩ :: stack, rank⟩ := by
  have hne : ∀ i, stale i → t ≠ i := by
    rintro i hi rfl
    exact absurd ((h.grey t hi).symm.trans ht) (by decide)
  have hsame := recolored_update g t Vertex.reset_enter
  have hcolor := colorOf_enter (lt_size_of_colorOf ht)
  refine ⟨fun i hi => ?_, List.forall_mem_cons.mpr ⟨fun hi => hne t hi rfl, h.apart⟩,
    List.forall_mem_cons.mpr ⟨by simp, fun f hf i hi => ?_⟩, fun a ha hblack b hab => ?_⟩
  · rw [hcolor, if_neg (hne i hi)]
    exact h.grey i hi
  · rw [hsame.relatedOf] at hi
    exact h.followed f hf i hi
  · rw [hsame.edge_eq] at hab
    rw [hcolor] at hblack
    split at hblack
    · cases hblack
    · exact h.left a ha hblack b hab

/-- A stale vertex closes no circle. -/
theorem closeCycle_eq (h : Avoids opened stale ⟨g, stack, rank⟩) (ht : stale t) :
    closeCycle g stack t = .fault (.notOnStack t) := by
  have hnot : t ∉ (stack.map Frame.vertex).reverse := by
    rw [List.mem_reverse, List.mem_map]
    rintro ⟨f, hf, rfl⟩
    exact h.apart f hf ht
  unfold closeCycle
  simp only [if_neg hnot]

end Avoids

/-! ## Searches that see the same -/

/-- What a search sees that enters opened vertices: these, and what they depend on. -/
def Sees (g : Graph) (opened : Handle → Prop) (h : Handle) : Prop := opened h ∨ ∃ a, opened a ∧ g.Edge a h

/-- Two searches that are equally far, and see the same but for stale vertices, which the first has avoided. -/
structure Alike (opened stale : Handle → Prop) (s s' : Search) : Prop extends Avoids opened stale s where
  stack : s'.stack = s.stack
  rank : s'.rank = s.rank
  seen : ∀ h, Sees s.graph opened h → ¬ stale h → s'.graph.vertices[h]? = s.graph.vertices[h]?

namespace Alike

variable {stale : Handle → Prop}

/-- With one vertex changed in both. -/
theorem update {s s' : Search} (h : Alike opened stale s s') (i : Handle) {f : Vertex → Vertex}
    (hf : ∀ v : Vertex, (f v).reset = v.reset) {stack : List Frame} {rank : Nat}
    (havoids : Avoids opened stale ⟨s.graph.update i f, stack, rank⟩) :
    Alike opened stale ⟨s.graph.update i f, stack, rank⟩ ⟨s'.graph.update i f, stack, rank⟩ where
  toAvoids := havoids
  stack := rfl
  rank := rfl
  seen j hj hne := by
    have hsees : Sees s.graph opened j := by
      rwa [Sees, (recolored_update s.graph i hf).edge_eq] at hj
    rw [vertices_update, vertices_update, h.seen j hsees hne]

/-- They close the same circle. -/
theorem closeCycle_eq {stack : List Frame} (h : Alike opened stale ⟨g, stack, rank⟩ ⟨g', stack, rank⟩)
    (hstack : ∀ f ∈ stack, opened f.vertex) {t : Handle} (ht : Sees g opened t) (hne : ¬ stale t) :
    closeCycle g' stack t = closeCycle g stack t := by
  have hlabels : g'.labels ((stack.map Frame.vertex).reverse.dropWhile (· ≠ t) ++ [t]) =
      g.labels ((stack.map Frame.vertex).reverse.dropWhile (· ≠ t) ++ [t]) := by
    refine labels_congr fun i hi => ?_
    rcases List.mem_append.mp hi with hi | hi
    · have hmem := List.mem_reverse.mp ((List.dropWhile_sublist _).mem hi)
      obtain ⟨f, hf, rfl⟩ := List.mem_map.mp hmem
      exact h.seen _ (.inl (hstack f hf)) (h.apart f hf)
    · obtain rfl := List.mem_singleton.mp hi
      exact h.seen i ht hne
  unfold closeCycle
  simp only [hlabels]

/-- **They take the same step**, unless it is to a stale vertex. -/
theorem step (hc : Confined opened ⟨g, top :: below, rank⟩)
    (h : Alike opened stale ⟨g, top :: below, rank⟩ ⟨g', top :: below, rank⟩) :
    (∃ t, g.Edge top.vertex t ∧ stale t ∧ step g rank top below = .error (.fault (.notOnStack t))) ∨
      (∃ e, step g rank top below = .error e ∧ step g' rank top below = .error e) ∨
      ∃ s s', step g rank top below = .ok s ∧ step g' rank top below = .ok s' ∧ Alike opened stale s s' := by
  have htop : opened top.vertex := hc.stack top List.mem_cons_self
  have hsame : g'.vertices[top.vertex]? = g.vertices[top.vertex]? :=
    h.seen _ (.inl htop) (h.apart top List.mem_cons_self)
  cases hv : g.vertices[top.vertex]? with
  | none =>
    refine .inr (.inl ⟨.fault .handle, ?_, ?_⟩)
    · simp [Search.step, Graph.get, hv, bind, Except.bind]
    · simp [Search.step, Graph.get, hsame, hv, bind, Except.bind]
  | some v =>
    rw [hv] at hsame
    cases ht : v.related[top.followed]? with
    | none =>
      exact .inr (.inr ⟨_, _, step_of_none hv ht, step_of_none hsame ht,
        h.update _ (Vertex.reset_leave rank) (h.leave hv ht)⟩)
    | some t =>
      have hedge : g.Edge top.vertex t := by
        rw [Edge, relatedOf_eq hv]
        exact List.mem_of_getElem? ht
      have hsees : Sees g opened t := .inr ⟨top.vertex, htop, hedge⟩
      by_cases hstale : stale t
      · have hgrey : g.colorOf t = some .grey := h.grey t hstale
        obtain ⟨w, hw⟩ := exists_vertex (lt_size_of_colorOf hgrey)
        have hcolor : w.color = .grey := Option.some.inj ((colorOf_eq hw).symm.trans hgrey)
        have hstep := step_of_some rank below hv ht hw
        rw [hcolor] at hstep
        exact .inl ⟨t, hedge, hstale, hstep.trans (congrArg _ (h.toAvoids.closeCycle_eq hstale))⟩
      have hsame' : g'.vertices[t]? = g.vertices[t]? := h.seen t hsees hstale
      cases hw : g.vertices[t]? with
      | none =>
        refine .inr (.inl ⟨.fault .handle, ?_, ?_⟩)
        · simp [Search.step, Graph.get, hv, ht, hw, bind, Except.bind]
        · simp [Search.step, Graph.get, hsame, ht, hsame', hw, bind, Except.bind]
      | some w =>
        rw [hw] at hsame'
        have hstep := step_of_some rank below hv ht hw
        have hstep' := step_of_some rank below hsame ht hsame'
        cases hcolor : w.color with
        | grey =>
          rw [hcolor] at hstep hstep'
          exact .inr (.inl ⟨_, hstep, by rw [hstep', h.closeCycle_eq hc.stack hsees hstale]⟩)
        | black =>
          rw [hcolor] at hstep hstep'
          exact .inr (.inr ⟨_, _, hstep, hstep', h.follow hv ht hstale, rfl, rfl, h.seen⟩)
        | white =>
          rw [hcolor] at hstep hstep'
          have hwhite : g.colorOf t = some .white := by rw [colorOf_eq hw, hcolor]
          exact .inr (.inr ⟨_, _, hstep, hstep',
            h.update _ Vertex.reset_enter ((h.follow hv ht hstale).enter hwhite)⟩)

/-- They run to the same end, unless the first comes to a stale vertex. -/
theorem run {s s' : Search} (hc : Confined opened s) (h : Alike opened stale s s') :
    Stumbles opened stale s.graph (Search.run s).2 ∨
      (Search.run s').2 = (Search.run s).2 ∧ Alike opened stale (Search.run s).1 (Search.run s').1 := by
  obtain ⟨g', stack', rank'⟩ := s'
  obtain rfl : stack' = s.stack := h.stack
  obtain rfl : rank' = s.rank := h.rank
  -- by the run of the first search; the graph of the second goes along
  fun_induction Search.run s generalizing g' with
  | case1 s hs =>
    rw [Recursion.run_of_empty (s := ⟨g', s.stack, s.rank⟩) hs]
    exact .inr ⟨rfl, h⟩
  | case2 s top below hs e hstep =>
    obtain ⟨g, stack, rank⟩ := s
    obtain rfl : stack = top :: below := hs
    rcases h.step hc with ⟨t, hedge, hstale, herror⟩ | ⟨e', herror, herror'⟩ | ⟨_, _, hok, -⟩
    · obtain rfl := Except.error.inj (herror.symm.trans hstep)
      exact .inl ⟨top.vertex, t, hc.stack top List.mem_cons_self, hedge, hstale, rfl⟩
    · obtain rfl := Except.error.inj (herror.symm.trans hstep)
      rw [Recursion.run_of_error herror']
      exact .inr ⟨rfl, h⟩
    · cases hok.symm.trans hstep
  | case3 s top below hs s₁ hstep ih =>
    obtain ⟨g, stack, rank⟩ := s
    obtain rfl : stack = top :: below := hs
    rcases h.step hc with ⟨_, _, _, herror⟩ | ⟨_, herror, -⟩ | ⟨s₂, s₂', hok, hok', hnext⟩
    · cases herror.symm.trans hstep
    · cases herror.symm.trans hstep
    · obtain rfl := Except.ok.inj (hok.symm.trans hstep)
      obtain ⟨g₂', stack₂, rank₂⟩ := s₂'
      obtain rfl : stack₂ = s₂.stack := hnext.stack
      obtain rfl : rank₂ = s₂.rank := hnext.rank
      obtain ⟨hconfined, htouches⟩ := hc.step hok
      rw [Recursion.run_of_step hok', Stumbles, ← htouches.recolored.edge_eq]
      exact ih hconfined g₂' hnext

theorem visit (hc : Confined opened ⟨g, [], rank⟩) (h : Alike opened stale ⟨g, [], rank⟩ ⟨g', [], rank⟩)
    {root : Handle} (hroot : opened root) (hne : ¬ stale root) :
    Stumbles opened stale g (Search.visit g rank root).2 ∨
      (Search.visit g' rank root).2 = (Search.visit g rank root).2 ∧
        Alike opened stale (Search.visit g rank root).1 (Search.visit g' rank root).1 := by
  have hget : g'.get root = g.get root := by
    unfold Graph.get
    rw [h.seen root (.inl hroot) hne]
  unfold Search.visit
  rw [hget]
  cases hv : g.get root with
  | error e => exact .inr ⟨rfl, h⟩
  | ok v =>
    simp only
    split
    · rename_i hwhite
      have hcolor : g.colorOf root = some .white := by rw [colorOf_eq (get_eq_ok_iff.mp hv), hwhite]
      have henter : g.Touches opened (g.update root Vertex.enter) :=
        .update hroot Vertex.reset_enter (by simp [Vertex.enter])
      have hrun := run (hc.touches henter (by simpa using hroot) rank)
        (h.update root Vertex.reset_enter (h.toAvoids.enter hcolor))
      rwa [Stumbles, henter.recolored.edge_eq] at hrun
    · exact .inr ⟨rfl, h⟩

/-- **Searches that see the same do the same**, unless the first comes to a stale vertex. -/
theorem visitAll : ∀ {handles : List Handle} {g g' : Graph} {rank : Nat}, Confined opened ⟨g, [], rank⟩ →
    Alike opened stale ⟨g, [], rank⟩ ⟨g', [], rank⟩ → (∀ h ∈ handles, opened h ∧ ¬ stale h) →
      Stumbles opened stale g (Search.visitAll g rank handles).2 ∨
        (Search.visitAll g' rank handles).2 = (Search.visitAll g rank handles).2 ∧
          Alike opened stale (Search.visitAll g rank handles).1 (Search.visitAll g' rank handles).1
  | [], _, _, _, _, h, _ => .inr ⟨rfl, h⟩
  | root :: handles, g, g', rank, hc, h, hroots => by
    obtain ⟨⟨hroot, hne⟩, hroots⟩ := List.forall_mem_cons.mp hroots
    have hfirst := h.visit hc hroot hne
    obtain ⟨hend, htouches⟩ := hc.visit fun _ => hroot
    unfold Search.visitAll
    generalize Search.visit g rank root = result at hfirst hend htouches ⊢
    generalize Search.visit g' rank root = result' at hfirst ⊢
    obtain ⟨s, outcome⟩ := result
    obtain ⟨s', outcome'⟩ := result'
    rcases hfirst with ⟨a, t, ha, hat, ht, hout⟩ | ⟨hout, hfirst⟩
    · obtain rfl : outcome = _ := hout
      exact .inl ⟨a, t, ha, hat, ht, rfl⟩
    obtain rfl : outcome' = outcome := hout
    cases outcome' with
    | error e => exact .inr ⟨rfl, hfirst⟩
    | ok u =>
      have hstart : Confined opened ⟨s.graph, [], s.rank⟩ := hend.touches (.refl _) (by simp) _
      have hrank : s'.rank = s.rank := hfirst.rank
      have hagain : Alike opened stale ⟨s.graph, [], s.rank⟩ ⟨s'.graph, [], s.rank⟩ :=
        ⟨⟨hfirst.grey, by simp, by simp, hfirst.left⟩, rfl, rfl, hfirst.seen⟩
      simp only [hrank]
      have hrest := visitAll hstart hagain hroots
      rwa [Stumbles, htouches.recolored.edge_eq] at hrest

end Alike

/-! ## Searches one after another -/

theorem visitAll_append (more : List Handle) : ∀ (handles : List Handle) (g : Graph) (rank : Nat),
    visitAll g rank (handles ++ more) =
      match visitAll g rank handles with
      | (s, .error e) => (s, .error e)
      | (s, .ok ()) => visitAll s.graph s.rank more
  | [], g, rank => rfl
  | root :: handles, g, rank => by
    rw [List.cons_append, visitAll, visitAll]
    generalize visit g rank root = result
    obtain ⟨s, outcome⟩ := result
    cases outcome with
    | error e => rfl
    | ok u => exact visitAll_append more handles s.graph s.rank

end Search

namespace Graph

/-- Resetting changes colours and ranks only, even if it is stopped. -/
theorem recolored_resetAll : ∀ (handles : List Handle) (g : Graph), g.Recolored (g.resetAll handles).1
  | [], g => .refl g
  | h :: handles, g => by
    rw [resetAll, modify]
    cases g.get h with
    | error e => exact .refl g
    | ok v => exact (recolored_update g h Vertex.reset_reset).trans (recolored_resetAll handles _)

/-- Sorting changes colours and ranks only, however it ends. -/
theorem recolored_sort (g : Graph) (handles : List Handle) : g.Recolored (g.sort handles).1 := by
  have hreset := recolored_resetAll handles g
  unfold sort
  generalize g.resetAll handles = result at hreset ⊢
  obtain ⟨g₀, outcome⟩ := result
  cases outcome with
  | error e => exact hreset
  | ok u => exact hreset.trans ((Search.confined_all _).visitAll fun _ _ _ => trivial).2.recolored

end Graph

end EvalOrder
