import EvalOrder.Proofs.Entry
import EvalOrder.Proofs.Linking

/-!
# The life of a session

A session reads one text after another, and goes on whatever came of the last one: a text that fails may leave
names registered, names related and a formula made. All the same the graph stays well-formed. Each line keeps it
so, hence each text, hence any number of texts.

Results:
* `WellFormed.sound`: what can be relied on in a well-formed graph.
* `enterAll_induction`, `read_induction`: what each line keeps, a run over lines keeps, and reading a text.
* `Lives.read`, `Lives.after`: a text, and any number of texts.
* **`sound_after_texts`**: the graph of a session after any texts.
-/

namespace EvalOrder

namespace Graph

/-! ## Each name once -/

/-- No name is registered twice. -/
def Keyed (g : Graph) : Prop := g.names.keys.Nodup

namespace Keyed

variable {g : Graph}

theorem register (hg : g.Keyed) (x : String) : (g.register x).2.Keyed := by
  unfold Graph.register
  cases hx : g.find? x with
  | some h => exact hg
  | none =>
    have hfresh : x ∉ g.names.keys := Table.get?_eq_none_iff.mp hx
    have hkeys : Table.keys (g.names ++ [(x, g.size)]) = g.names.keys ++ [x] := by simp [Table.keys]
    rw [Keyed, hkeys]
    refine List.nodup_append.mpr ⟨hg, List.nodup_singleton x, ?_⟩
    intro y hy z hz hyz
    exact hfresh (List.mem_singleton.mp hz ▸ hyz ▸ hy)

theorem registerAll (hg : g.Keyed) (names : List String) : (g.registerAll names).2.Keyed := by
  induction names generalizing g with
  | nil => exact hg
  | cons x names ih => exact ih (hg.register x)

theorem registerGroups (hg : g.Keyed) (groups : List (List String)) : (g.registerGroups groups).2.Keyed := by
  induction groups generalizing g with
  | nil => exact hg
  | cons group groups ih => exact ih (hg.registerAll group)

theorem addEdges (hg : g.Keyed) (edges : List (Handle × Handle)) : (g.addEdges edges).Keyed := by
  rw [Keyed, (addEdges_keeps edges g).2.1]
  exact hg

end Keyed

/-! ## What a well-formed graph offers -/

namespace WellFormed

variable {g : Graph}

/-- A vertex is that of one name, or is listed as a formula, once. -/
theorem sort_of_vertex (hg : g.WellFormed) {h : Handle} (hlt : h < g.size) :
    ((∃! x, g.find? x = some h) ∧ h ∉ g.formulas) ∨ (¬ g.IsName h ∧ g.formulas.count h = 1) := by
  rcases hg.covered h hlt with ⟨x, hx⟩ | hf
  · exact .inl ⟨⟨x, hx, fun y hy => hg.injective hy hx⟩, fun hf => hg.apart h hf ⟨x, hx⟩⟩
  · exact .inr ⟨hg.apart h hf, List.count_eq_one_of_mem (hg.ascending.imp Nat.ne_of_lt) hf⟩

theorem isFormula_iff (hg : g.WellFormed) {h : Handle} {v : Vertex} (hv : g.vertices[h]? = some v) :
    v.isFormula = true ↔ h ∈ g.formulas := by
  rcases hg.covered h (lt_size hv) with hn | hf
  · have hnot : h ∉ g.formulas := fun hf => hg.apart h hf hn
    simp [Vertex.isFormula, (hg.ofName hn hv).1, hnot]
  · simp [Vertex.isFormula, (hg.ofFormula hf hv).1.1, hf]

/-- The owner of a name does not depend on the order in which the formulas are put into the table. -/
theorem get?_owners_of_perm (hg : g.WellFormed) {order : List Handle} (h : order.Perm g.formulas) (d : Handle) :
    { g with formulas := order }.owners.get? d = g.owners.get? d := by
  have hown : ∀ a ∈ order, ∀ b ∈ order, ∀ d ∈ g.declaredBy a, d ∈ g.declaredBy b → a = b := fun a ha b hb =>
    hg.ownedOnce a (h.mem_iff.mp ha) b (h.mem_iff.mp hb)
  refine Option.ext fun f => ?_
  rw [get?_owners hg.ownedOnce, get?_owners (g := { g with formulas := order }) hown, h.mem_iff]
  rfl

end WellFormed

/-- What can be relied on in a graph. -/
structure Sound (g : Graph) : Prop extends WellFormed g where
  keyed : g.Keyed
  /-- Different names have different vertices. -/
  injective : ∀ {x y : String} {h : Handle}, g.find? x = some h → g.find? y = some h → x = y
  /-- A vertex is that of one name, or is listed as a formula, once. -/
  sorts : ∀ h < g.size,
    ((∃! x, g.find? x = some h) ∧ h ∉ g.formulas) ∨ (¬ g.IsName h ∧ g.formulas.count h = 1)
  /-- The vertices that declare something are those listed. -/
  isFormula : ∀ {h : Handle} {v : Vertex}, g.vertices[h]? = some v → (v.isFormula = true ↔ h ∈ g.formulas)
  /-- The owner of a name is the formula that declares it, -/
  owner : ∀ d f, g.owners.get? d = some f ↔ f ∈ g.formulas ∧ d ∈ g.declaredBy f
  /-- in whatever order the formulas are taken. -/
  owner_of_perm : ∀ order : List Handle, order.Perm g.formulas → ∀ d,
    { g with formulas := order }.owners.get? d = g.owners.get? d

/-- A well-formed graph can be relied on. -/
theorem WellFormed.sound {g : Graph} (hg : g.WellFormed) (hkeyed : g.Keyed) : g.Sound where
  toWellFormed := hg
  keyed := hkeyed
  injective := hg.injective
  sorts _ hlt := hg.sort_of_vertex hlt
  isFormula hv := hg.isFormula_iff hv
  owner _ _ := get?_owners hg.ownedOnce
  owner_of_perm _ hperm := hg.get?_owners_of_perm hperm

end Graph

namespace Session

open EvalOrder.Graph

/-! ## Lines -/

theorem noted_keyed {s : Session} (hs : s.graph.Keyed) (c : Cursor) : (s.noted c).graph.Keyed :=
  (hs.registerAll _).registerGroups _

theorem enter_keyed {s : Session} (hs : s.graph.WellFormed) (hk : s.graph.Keyed) (c : Cursor) :
    (s.enter c).session.graph.Keyed := by
  have hway := way_enter hs.named c
  have hnoted := noted_keyed hk c
  generalize s.enter c = entry at hway ⊢
  cases hway with
  | noToken _ => exact hk
  | unread _ _ => exact hnoted
  | unmatched _ _ _ => exact hnoted
  | circular _ _ _ _ _ _ _ _ => exact hnoted.addEdges _
  | formula _ _ _ _ => exact hnoted.addEdges _

/-- Whatever each line of a session keeps, a run over lines keeps. -/
theorem enterAll_induction {P : Session → Prop} (step : ∀ s c, P s → P (s.enter c).session) {s : Session}
    (hs : P s) (cs : List Cursor) : P (s.enterAll cs).1 := by
  induction cs generalizing s with
  | nil => exact hs
  | cons c cs ih =>
    have hnext := step s c hs
    rw [enterAll]
    cases (s.enter c).outcome with
    | error e => exact hnext
    | ok u => exact ih hnext

/-! ## Texts -/

/-- The session after some texts, whatever came of each. -/
def after (s : Session) (texts : List String) : Session := texts.foldl (fun s text => (s.read text).session) s

/-- What is kept of every session: it is well-formed, and no name of its graph is registered twice. -/
def Lives (s : Session) : Prop := s.WellFormed ∧ s.graph.Keyed

theorem Lives.link {s : Session} (hs : s.Lives) : Lives { s with graph := s.graph.link } := by
  refine ⟨hs.1.addEdges ?_, hs.2.addEdges _⟩
  intro e he
  obtain ⟨ha, hb, hne, -⟩ := mem_linkEdges.mp he
  exact .inr ⟨ha, hb, hne⟩

/-- What each line keeps, and linking keeps too, reading a text keeps, whether it ends well or fails at any line. -/
theorem read_induction {P : Session → Prop} (step : ∀ s c, P s → P (s.enter c).session)
    (link : ∀ s : Session, P s → P { s with graph := s.graph.link }) {s : Session} (hs : P s) (text : String) :
    P (s.read text).session := by
  have hlines := enterAll_induction step hs (lineCursors (terminated text.toList))
  unfold Session.read
  simp only
  split
  · exact hlines
  · split
    · exact hlines
    · exact link _ hlines

theorem Lives.enter {s : Session} (hs : s.Lives) (c : Cursor) : (s.enter c).session.Lives :=
  ⟨hs.1.enter c, enter_keyed hs.1.graph hs.2 c⟩

theorem Lives.read {s : Session} (hs : s.Lives) (text : String) : (s.read text).session.Lives :=
  read_induction (fun _ c h => h.enter c) (fun _ h => h.link) hs text

theorem Lives.after {s : Session} (hs : s.Lives) (texts : List String) : (s.after texts).Lives := by
  induction texts generalizing s with
  | nil => exact hs
  | cons text texts ih => exact ih (hs.read text)

theorem lives_empty : Lives {} := ⟨wellFormed_empty, List.nodup_nil⟩

/-- **The graph of a session after any texts**, whether they were read or refused, can be relied on. -/
theorem sound_after_texts (texts : List String) : (after {} texts).graph.Sound := by
  obtain ⟨hwf, hkeyed⟩ := lives_empty.after texts
  exact hwf.graph.sound hkeyed

end Session

end EvalOrder
