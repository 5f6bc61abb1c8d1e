import EvalOrder.Proofs.Relinking
import EvalOrder.Proofs.Selections

/-!
# Linking and looking at all pairs

A formula depends on every other that declares a name it calls. That could be found out by looking at all pairs of
formulas, one by one (`scanPairs`). Linking looks up the owners of the called names instead: they are a set without
the formula itself (`owning`), and edges lead to them in the order of declaration. As long as no two formulas declare
one name, both come to the same graph. Edges are added behind those that are there, to each formula at most once,
however many of its names are called, and nothing else changes.

Results:
* `Arises.ascending`: formulas are listed in the order of their handles.
* `scanPairs_eq`: the edges that looking at all pairs adds.
* `sort_owning`, `targets_eq`: the owners of the called names, sorted, are the same formulas.
* **`link_eq_scanPairs`**: linking is looking at all pairs.
-/

namespace EvalOrder

namespace Graph

/-- The first formula calls a name that the second, another one, declares. -/
def CallsOn (g : Graph) (a b : Handle) : Prop := b ≠ a ∧ ∃ d ∈ g.declaredBy b, d ∈ g.calledBy a

instance (g : Graph) (a b : Handle) : Decidable (g.CallsOn a b) :=
  inferInstanceAs (Decidable (b ≠ a ∧ ∃ d ∈ g.declaredBy b, d ∈ g.calledBy a))

/-- Look at a pair of formulas, which adds an edge if the first calls a name of the second. -/
def scanPair (g : Graph) (a b : Handle) : Graph :=
  if g.CallsOn a b then g.update a (·.addRelated b) else g

/-- Look at all pairs: for each formula, at all formulas in the order of declaration. -/
def scanPairs (g : Graph) : Graph :=
  g.formulas.foldl (fun g a => g.formulas.foldl (fun g b => g.scanPair a b) g) g

/-- The other formulas that own a name which a formula calls, each once, in the order of its calls. -/
def owning (g : Graph) (formula : Handle) : List Handle := g.calledOwners g.owners formula

/-- No two formulas declare one name. Whatever a formula declares counts as a name here. -/
def OwnedOnce (g : Graph) : Prop :=
  ∀ a ∈ g.formulas, ∀ b ∈ g.formulas, ∀ d ∈ g.declaredBy a, d ∈ g.declaredBy b → a = b

/-- Formulas are listed in the order of their handles, as each was the last vertex when it was added. -/
theorem Arises.ascending {g : Graph} (h : g.Arises) : g.formulas.Pairwise (· < ·) := by
  induction h with
  | empty => exact .nil
  | register name _ ih => rwa [register_keeps_formulas]
  | addRelated _ _ h ih => rwa [addRelated_keeps_formulas h]
  | @addFormula g label declared calls hg _ _ ih =>
    rw [addFormula_eq]
    exact List.pairwise_append.mpr ⟨ih, List.pairwise_singleton _ _,
      fun a ha b hb => List.mem_singleton.mp hb ▸ hg.inRange.formulas a ha⟩
  | link _ ih => rwa [formulas_link]
  | sort _ _ ih => rwa [(recolored_sort _ _).formulas]

/-! ## Looking at all pairs -/

/-- Edges do not matter to what formulas call and declare. -/
theorem callsOn_addEdges (g : Graph) (edges : List (Handle × Handle)) (a b : Handle) :
    (g.addEdges edges).CallsOn a b ↔ g.CallsOn a b := by
  rw [CallsOn, CallsOn, declaredBy_addEdges, calledBy_addEdges]

/-- Looking from one formula at a list of formulas adds the edges to those it calls names of, in order. -/
theorem scanPair_foldl (g : Graph) (a : Handle) (bs : List Handle) :
    bs.foldl (fun g b => g.scanPair a b) g = g.addEdges ((bs.filter (g.CallsOn a ·)).map fun b => (a, b)) := by
  induction bs generalizing g with
  | nil => rfl
  | cons b bs ih =>
    rw [List.foldl_cons, ih, scanPair]
    by_cases hb : g.CallsOn a b
    · have hone : g.update a (·.addRelated b) = g.addEdges [(a, b)] := rfl
      have hsame : bs.filter ((g.addEdges [(a, b)]).CallsOn a ·) = bs.filter (g.CallsOn a ·) :=
        List.filter_congr fun c _ => by simp only [callsOn_addEdges]
      rw [if_pos hb, hone, hsame, ← addEdges_append, List.filter_cons_of_pos (by simpa using hb)]
      rfl
    · rw [if_neg hb, List.filter_cons_of_neg (by simpa using hb)]

/-- **The edges that looking at all pairs adds.** -/
theorem scanPairs_eq (g : Graph) : g.scanPairs =
    g.addEdges (g.formulas.flatMap fun a => (g.formulas.filter (g.CallsOn a ·)).map fun b => (a, b)) := by
  -- the formulas that are still to be looked from, in a graph that differs in edges only
  have hrest : ∀ (fs : List Handle) (edges : List (Handle × Handle)),
      fs.foldl (fun g a => g.formulas.foldl (fun g b => g.scanPair a b) g) (g.addEdges edges) =
        g.addEdges (edges ++ fs.flatMap fun a => (g.formulas.filter (g.CallsOn a ·)).map fun b => (a, b)) := by
    intro fs
    induction fs with
    | nil => intro edges; rw [List.flatMap_nil, List.append_nil]; rfl
    | cons a fs ih =>
      intro edges
      have hsame : g.formulas.filter ((g.addEdges edges).CallsOn a ·) = g.formulas.filter (g.CallsOn a ·) :=
        List.filter_congr fun c _ => by simp only [callsOn_addEdges]
      rw [List.foldl_cons, (addEdges_keeps edges g).2.2, scanPair_foldl, hsame, ← addEdges_append, ih,
        List.flatMap_cons, List.append_assoc]
  exact hrest g.formulas []

/-! ## Looking up owners -/

/-- **Sorting the owners of the called names** by where they are declared finds the formulas that a scan finds. -/
theorem sort_owning {g : Graph} (honce : g.formulas.Nodup) (hown : g.OwnedOnce) (a : Handle) :
    (g.owning a).mergeSort g.notAfter = g.formulas.filter (g.CallsOn a ·) := by
  rw [owning, ← targets, targets_eq_filter honce]
  refine List.filter_congr fun b hb => ?_
  rw [decide_eq_decide, mem_calledOwners, CallsOn]
  simp only [get?_owners hown]
  refine and_congr_right fun _ => ⟨?_, ?_⟩
  · rintro ⟨d, hd, -, hdb⟩
    exact ⟨d, hdb, hd⟩
  · rintro ⟨d, hdb, hd⟩
    exact ⟨d, hd, hb, hdb⟩

/-- These are the formulas that linking finds. -/
theorem targets_eq {g : Graph} (honce : g.formulas.Nodup) (hown : g.OwnedOnce) (a : Handle) :
    g.targets g.owners a = g.formulas.filter (g.CallsOn a ·) :=
  sort_owning honce hown a

/-- **Linking is looking at all pairs.** In a graph that operations lead to, and in which no two formulas declare one
name, each formula gets behind its edges one to every other that declares a name it calls, in the order of
declaration. These are the owners of its called names, sorted. Nothing else changes. -/
theorem link_eq_scanPairs {g : Graph} (hg : g.Arises) (hown : g.OwnedOnce) :
    g.link = g.scanPairs ∧
      (∀ h : Handle, g.link.vertices[h]? = g.vertices[h]?.map fun v =>
        { v with related := v.related ++ if h ∈ g.formulas then g.formulas.filter (g.CallsOn h ·) else [] }) ∧
      (∀ f, (g.owning f).mergeSort g.notAfter = g.formulas.filter (g.CallsOn f ·)) ∧
      g.link.size = g.size ∧ g.link.names = g.names ∧ g.link.formulas = g.formulas := by
  have honce : g.formulas.Nodup := hg.ascending.imp Nat.ne_of_lt
  have hedges : g.linkEdges =
      g.formulas.flatMap fun a => (g.formulas.filter (g.CallsOn a ·)).map fun b => (a, b) := by
    unfold linkEdges
    simp only [targets_eq honce hown]
  refine ⟨by rw [scanPairs_eq, ← hedges, link], fun h => ?_, sort_owning honce hown, size_link g, names_link g,
    formulas_link g⟩
  rw [link, vertices_addEdges, filter_linkEdges honce]
  simp only [targets_eq honce hown]

/-- Of two formulas the first calls both names that the second declares, and gets one edge to it. -/
theorem link_two_names :
    let g := ((((({} : Graph).register "a").2.register "b").2.addFormula "c=a+b" [] [[0, 1]]).2.addFormula "a,b=1,1"
      [0, 1] [[], []]).2
    g.Arises ∧ g.OwnedOnce ∧ g.link = g.scanPairs ∧ g.link.relatedOf 2 = [3] := by
  intro g
  have harises : g.Arises := by
    refine .addFormula _ (.addFormula _ (.register _ (.register _ .empty)) ?_ ?_) ?_ ?_ <;> decide
  have hown : g.OwnedOnce := by
    unfold OwnedOnce
    decide
  exact ⟨harises, hown, (link_eq_scanPairs harises hown).1, by decide +kernel⟩

end Graph

end EvalOrder
