import EvalOrder.Proofs.Entry
import EvalOrder.Proofs.Nameless

/-!
# Names renamed

Lines are entered alike if their tokens correspond and their names do under a renaming that gives no two names one. What
is registered has the same handles, the same edges are added, and the same formulas made; names are called by what they
are renamed to, while formulas may be labelled anyhow (`Graph.Renamed`). Lines that are refused are refused for the same
cause, said of the renamed names (`Failure.Renamed`).

Results:
* `RenamedAmong.register`, `RenamedAmong.relateCalls`, `RenamedAmong.addFormula`, `Renamed.link`: the operations on
  graphs.
* `Session.Renamed.enter`: one line.
* **`Session.Renamed.enterAll`**: lines one after another.
-/

namespace EvalOrder

/-! ## What is said of renamed names -/

/-- The cause, said of renamed names. -/
def SyntaxCause.rename (r : String → String) : SyntaxCause → SyntaxCause
  | undefined names => undefined (names.map r)
  | cause => cause

/-- Failures for the same cause, said of renamed names. Text may be malformed at different places. -/
inductive Failure.Renamed (r : String → String) : Failure → Failure → Prop
  | malformed (place place' : Place) (cause : SyntaxCause) :
      Renamed r (.malformed ⟨place, cause⟩) (.malformed ⟨place', cause.rename r⟩)
  | onLine (declared called : String) :
      Renamed r (.cyclic (.onLine declared called)) (.cyclic (.onLine (r declared) (r called)))
  | fault (f : Fault) : Renamed r (.fault f) (.fault f)

/-- Causes that mention no names are the same. -/
theorem Failure.renamed_malformed (r : String → String) (place place' : Place) {cause : SyntaxCause}
    (h : ∀ names, cause ≠ .undefined names) : Renamed r (.malformed ⟨place, cause⟩) (.malformed ⟨place', cause⟩) := by
  have hsame : cause.rename r = cause := by
    cases cause with
    | undefined names => exact absurd rfl (h names)
    | _ => rfl
  have hrenamed := Renamed.malformed (r := r) place place' cause
  rwa [hsame] at hrenamed

/-- Tokens of one kind, which are names that correspond if they are names. -/
structure Token.Renamed (r : String → String) (known : Set String) (t t' : Token) : Prop where
  tag : t'.tag = t.tag
  text : t.tag = .ident → t.text ∈ known ∧ t'.text = r t.text

variable {r : String → String} {known : Set String}

/-- So lines with such tokens are read alike. -/
theorem agrees_renamed (hr : Set.InjOn r known) : Agrees r known (Token.Renamed r known) (Failure.Renamed r) where
  injOn := hr
  tag h := h.tag
  text h := h.text
  expected want h := by
    rw [Token.expected, Token.expected, h.tag]
    exact Failure.renamed_malformed r _ _ (by simp)
  start _ hcause := Failure.renamed_malformed r _ _ hcause

/-- Renamed keys have the values that they had. -/
theorem Table.get?_map_key {ν : Type} {t : Table String ν} {x : String} (h : ∀ e ∈ t, r e.1 = r x → e.1 = x) :
    Table.get? (t.map fun e => (r e.1, e.2)) (r x) = t.get? x := by
  induction t with
  | nil => rfl
  | cons e t ih =>
    obtain ⟨he, ht⟩ := List.forall_mem_cons.mp h
    rw [List.map_cons, get?, get?, ih ht]
    have hkey : r e.1 = r x ↔ e.1 = x := ⟨he, congrArg r⟩
    simp only [hkey]

/-- Names that are not among others are not after renaming. -/
theorem filter_not_mem_map {xs ys : List String} (hr : Set.InjOn r known) (hxs : ∀ x ∈ xs, x ∈ known)
    (hys : ∀ y ∈ ys, y ∈ known) : (xs.map r).filter (· ∉ ys.map r) = (xs.filter (· ∉ ys)).map r := by
  rw [List.filter_map]
  refine congrArg (List.map r) (List.filter_congr fun x hx => ?_)
  simp only [Function.comp, mem_map_iff_of_injOn hr hys (hxs x hx)]

namespace Graph

variable {g g' : Graph}

/-! ## Operations on graphs -/

/-- The second graph is the first with its names renamed. Formulas may be labelled otherwise. -/
structure Renamed (r : String → String) (g g' : Graph) : Prop extends SameShape g g' where
  names : g'.names = g.names.map fun e => (r e.1, e.2)
  nameOf? : ∀ h ∉ g.formulas, g'.nameOf? h = (g.nameOf? h).map r

/-- The same, and all names of the first graph are known. -/
structure RenamedAmong (known : Set String) (r : String → String) (g g' : Graph) : Prop extends Renamed r g g' where
  known : ∀ e ∈ g.names, e.1 ∈ known

namespace Renamed

/-- Changing a vertex in both graphs, by what neither looks at names nor changes them. -/
theorem update (h : g.Renamed r g') {f : Vertex → Vertex} (hf : ∀ v : Vertex, (f v).nameless = f v.nameless)
    (hname : ∀ v : Vertex, (f v).name = v.name) (i : Handle) : (g.update i f).Renamed r (g'.update i f) where
  toSameShape := h.toSameShape.update hf i
  names := h.names
  nameOf? j hj := by
    have hkeeps : ∀ g : Graph, (g.update i f).nameOf? j = g.nameOf? j := by
      intro g
      unfold Graph.nameOf?
      rw [vertices_update]
      split
      · rw [Option.map_map]
        exact congrArg (Option.map · _) (funext hname)
      · rfl
    rw [hkeeps, hkeeps]
    exact h.nameOf? j hj

/-- What a name's vertex is called. -/
theorem label (h : g.Renamed r g') {i : Handle} (hi : i ∉ g.formulas) :
    Together (Failure.Renamed r) (fun x x' => x' = r x) (g.label i) (g'.label i) := by
  have hname := h.nameOf? i hi
  unfold Graph.nameOf? at hname
  unfold Graph.label Graph.get
  cases hv : g.vertices[i]? with
  | none =>
    rw [h.vertex_none hv]
    exact .error (.fault _)
  | some v =>
    rw [hv] at hname
    obtain ⟨v', hv', hx⟩ := Option.map_eq_some_iff.mp hname
    rw [hv']
    exact .ok hx

end Renamed

namespace RenamedAmong

theorem find? (h : g.RenamedAmong known r g') (hr : Set.InjOn r known) {x : String} (hx : x ∈ known) :
    g'.find? (r x) = g.find? x := by
  rw [Graph.find?, h.names, Graph.find?]
  exact Table.get?_map_key fun e he hex => hr (h.known e he) hx hex

/-- Registering a name. -/
theorem register (h : g.RenamedAmong known r g') (hr : Set.InjOn r known) {x : String} (hx : x ∈ known) :
    (g'.register (r x)).1 = (g.register x).1 ∧
      (g.register x).2.RenamedAmong known r (g'.register (r x)).2 := by
  unfold Graph.register
  rw [h.find? hr hx]
  cases g.find? x with
  | some i => exact ⟨rfl, h⟩
  | none =>
    have hsize : g'.vertices.size = g.vertices.size := h.size_eq
    refine ⟨hsize, ⟨⟨⟨fun i => ?_, h.formulas⟩, ?_, fun i hi => ?_⟩, ?_⟩⟩
    · simp only [Array.getElem?_push, hsize]
      split
      · simp [Vertex.nameless, Graph.size, hsize]
      · exact h.vertices i
    · simp [h.names, Graph.size, hsize]
    · simp only [Graph.nameOf?, Array.getElem?_push, hsize]
      split
      · rfl
      · exact h.nameOf? i hi
    · simp only [List.forall_mem_append, List.forall_mem_singleton]
      exact ⟨h.known, hx⟩

theorem registerAll (h : g.RenamedAmong known r g') (hr : Set.InjOn r known) {xs : List String}
    (hxs : ∀ x ∈ xs, x ∈ known) : (g'.registerAll (xs.map r)).1 = (g.registerAll xs).1 ∧
      (g.registerAll xs).2.RenamedAmong known r (g'.registerAll (xs.map r)).2 := by
  induction xs generalizing g g' with
  | nil => exact ⟨rfl, h⟩
  | cons x xs ih =>
    obtain ⟨hx, hxs⟩ := List.forall_mem_cons.mp hxs
    obtain ⟨hfirst, hnext⟩ := h.register hr hx
    obtain ⟨hrest, hend⟩ := ih hnext hxs
    simp only [List.map_cons, Graph.registerAll, hfirst, hrest]
    exact ⟨trivial, hend⟩

theorem registerGroups (h : g.RenamedAmong known r g') (hr : Set.InjOn r known) {groups : List (List String)}
    (hgroups : ∀ x ∈ groups.flatten, x ∈ known) :
    (g'.registerGroups (groups.map (List.map r))).1 = (g.registerGroups groups).1 ∧
      (g.registerGroups groups).2.RenamedAmong known r (g'.registerGroups (groups.map (List.map r))).2 := by
  induction groups generalizing g g' with
  | nil => exact ⟨rfl, h⟩
  | cons group groups ih =>
    rw [List.flatten_cons, List.forall_mem_append] at hgroups
    obtain ⟨hfirst, hnext⟩ := h.registerAll hr hgroups.1
    obtain ⟨hrest, hend⟩ := ih hnext hgroups.2
    simp only [List.map_cons, Graph.registerGroups, hfirst, hrest]
    exact ⟨trivial, hend⟩

/-- Adding an edge. -/
theorem addEdge (h : g.RenamedAmong known r g') (a b : Handle) :
    (g.update a (·.addRelated b)).RenamedAmong known r (g'.update a (·.addRelated b)) where
  toRenamed := h.toRenamed.update (f := (·.addRelated b)) (fun _ => rfl) (fun _ => rfl) a
  known := h.known

theorem addRelated (h : g.RenamedAmong known r g') (a b : Handle) :
    Together (Failure.Renamed r) (RenamedAmong known r) (g.addRelated a b) (g'.addRelated a b) := by
  unfold Graph.addRelated modify Graph.get
  cases hv : g.vertices[a]? with
  | none =>
    rw [h.vertex_none hv]
    exact .error (.fault _)
  | some v =>
    obtain ⟨v', hv', -⟩ := h.exists_vertex hv
    rw [hv']
    exact .ok (h.addEdge a b)

/-- Relating names to what they call. -/
theorem relateCalls (declared : List Handle) : ∀ {pairs : List (Handle × Handle)} {g g' : Graph},
    g.RenamedAmong known r g' → (∀ p ∈ pairs, p.1 ∉ g.formulas ∧ p.2 ∉ g.formulas) →
      (g.relateCalls declared pairs).1.RenamedAmong known r (g'.relateCalls declared pairs).1 ∧
        Together (Failure.Renamed r) Eq (g.relateCalls declared pairs).2 (g'.relateCalls declared pairs).2
  | [], _, _, h, _ => ⟨h, .ok rfl⟩
  | (a, b) :: pairs, g, g', h, hpairs => by
    obtain ⟨⟨ha, hb⟩, hpairs⟩ := List.forall_mem_cons.mp hpairs
    have hadd := h.addRelated a b
    rw [Graph.relateCalls, Graph.relateCalls]
    cases hfirst : g.addRelated a b with
    | error e =>
      rw [hfirst] at hadd
      generalize g'.addRelated a b = outcome' at hadd
      cases hadd with
      | error he => exact ⟨h, .error he⟩
    | ok g₁ =>
      rw [hfirst] at hadd
      generalize g'.addRelated a b = outcome' at hadd
      cases hadd with
      | @ok _ g₁' hnext =>
        have hformulas : g₁.formulas = g.formulas := addRelated_keeps_formulas hfirst
        rw [← hformulas] at ha hb hpairs
        simp only
        split
        · have hla := hnext.label ha
          have hlb := hnext.label hb
          generalize g₁.label a = la at hla
          generalize g₁'.label a = la' at hla
          generalize g₁.label b = lb at hlb
          generalize g₁'.label b = lb' at hlb
          cases hla with
          | error he => exact ⟨hnext, .error he⟩
          | ok hla =>
            cases hlb with
            | error he => exact ⟨hnext, .error he⟩
            | ok hlb =>
              rw [hla, hlb]
              exact ⟨hnext, .error (.onLine _ _)⟩
        · exact relateCalls declared hnext hpairs

/-- Adding a formula, which may be labelled otherwise. -/
theorem addFormula (h : g.RenamedAmong known r g') (label label' : String) (declared : List Handle)
    (calls : List (List Handle)) :
    (g.addFormula label declared calls).2.RenamedAmong known r (g'.addFormula label' declared calls).2 := by
  have hsize : g'.size = g.size := h.size_eq
  have hformulas : ∀ (g : Graph) (label : String), (g.addFormula label declared calls).2.formulas =
      g.formulas ++ [g.size] := fun _ _ => rfl
  refine ⟨⟨⟨fun i => ?_, ?_⟩, h.names, fun i hi => ?_⟩, h.known⟩
  · rw [vertices_addFormula, vertices_addFormula, hsize]
    split
    · simp [formulaVertex, Vertex.nameless, hsize]
    · exact h.vertices i
  · rw [hformulas, hformulas, h.formulas, hsize]
  · rw [hformulas, List.mem_append, List.mem_singleton, not_or] at hi
    rw [Graph.nameOf?, vertices_addFormula, if_neg (hsize ▸ hi.2), Graph.nameOf?, vertices_addFormula,
      if_neg hi.2]
    exact h.nameOf? i hi.1

end RenamedAmong

/-- Renaming changes no links. -/
theorem SameShape.linkEdges (h : g.SameShape g') : g'.linkEdges = g.linkEdges := by
  have hdeclared : g'.declaredBy = g.declaredBy := funext fun i => by
    rw [declaredBy, declaredBy, h.map_eq Vertex.declared fun _ => rfl]
  have hcalled : g'.calledBy = g.calledBy := funext fun i => by
    rw [calledBy, calledBy, h.map_eq Vertex.called fun _ => rfl]
  have howners : g'.owners = g.owners := by
    rw [owners, owners, h.formulas, hdeclared]
  have htargets : g'.targets g.owners = g.targets g.owners := funext fun i => by
    have hnotAfter : g'.notAfter = g.notAfter := by
      unfold notAfter
      rw [h.formulas]
    rw [targets, targets, calledOwners, calledOwners, hnotAfter, hcalled]
  rw [Graph.linkEdges, Graph.linkEdges, h.formulas, howners, htargets]

theorem Renamed.addEdges (h : g.Renamed r g') (edges : List (Handle × Handle)) :
    (g.addEdges edges).Renamed r (g'.addEdges edges) := by
  induction edges generalizing g g' with
  | nil => exact h
  | cons e edges ih => exact ih (h.update (f := (·.addRelated e.2)) (fun _ => rfl) (fun _ => rfl) e.1)

/-- Linking. -/
theorem Renamed.link (h : g.Renamed r g') : g.link.Renamed r g'.link := by
  rw [Graph.link, Graph.link, h.toSameShape.linkEdges]
  exact h.addEdges _

end Graph

namespace Session

/-! ## Lines -/

/-- The second session is the first with its names renamed, all of which are known. -/
structure Renamed (known : Set String) (r : String → String) (s s' : Session) : Prop where
  graph : s.graph.RenamedAmong known r s'.graph
  defined : s'.defined = s.defined.map r
  called : s'.called = s.called.map r
  known : (∀ x ∈ s.defined, x ∈ known) ∧ ∀ x ∈ s.called, x ∈ known

namespace Renamed

theorem empty (known : Set String) (r : String → String) : Renamed known r {} {} where
  graph := ⟨⟨⟨fun _ => rfl, rfl⟩, rfl, fun h _ => by simp [Graph.nameOf?]⟩, by simp⟩
  defined := rfl
  called := rfl
  known := by simp

variable {s s' : Session} {c c' : Cursor}

/-- Lines whose tokens correspond say the same. -/
theorem reading (h : Renamed known r s s') (hr : Set.InjOn r known)
    (hc : Lexed.Mirrors (Token.Renamed r known) (Failure.Renamed r) (.ofCursor c) (.ofCursor c')) :
    Reading.Mirrors r known (Token.Renamed r known) (Failure.Renamed r) (s.reading c) (s'.reading c') := by
  rw [Session.reading, Session.reading, h.defined]
  exact Reading.ofLexed_mirrors (agrees_renamed hr) hc h.known.1

/-- Their names are noted at the same handles. -/
theorem noted (h : Renamed known r s s') (hr : Set.InjOn r known)
    (hread : Reading.Mirrors r known (Token.Renamed r known) (Failure.Renamed r) (s.reading c) (s'.reading c')) :
    s'.declaring c' = s.declaring c ∧ s'.calling c' = s.calling c ∧
      Renamed known r (s.noted c) (s'.noted c') := by
  obtain ⟨⟨hnames, hcalls⟩, hnames', hexpressions', -⟩ := hread
  unfold Session.declaring Session.calling Session.noted Session.note
  rw [hnames', hexpressions']
  obtain ⟨hfirst, hnext⟩ := h.graph.registerAll hr hnames
  obtain ⟨hgroups, hend⟩ := hnext.registerGroups hr hcalls
  refine ⟨hfirst, congrArg (List.map distinct) hgroups, hend, ?_, ?_, ?_, ?_⟩
  · simp [h.defined]
  · rw [h.called, ← List.map_flatten]
    have hknown : ∀ x ∈ s.called ++ (s.reading c).expressions.flatten, x ∈ known :=
      List.forall_mem_append.mpr ⟨h.known.2, hcalls⟩
    exact addAll_map r _ _ fun x hx y hy => hr (hknown x hx) (hknown y hy)
  · exact List.forall_mem_append.mpr ⟨h.known.1, hnames⟩
  · exact fun x hx => (mem_addAll.mp hx).elim (h.known.2 x) (hcalls x)

/-- With other graphs. -/
theorem withGraph (h : Renamed known r s s') {g g' : Graph} (hg : g.RenamedAmong known r g') :
    Renamed known r { s with graph := g } { s' with graph := g' } :=
  ⟨hg, h.defined, h.called, h.known⟩

/-- **One line.** -/
theorem enter (h : Renamed known r s s') (hs : s.graph.WellFormed) (hr : Set.InjOn r known)
    (hc : Lexed.Mirrors (Token.Renamed r known) (Failure.Renamed r) (.ofCursor c) (.ofCursor c')) :
    Renamed known r (s.enter c).session (s'.enter c').session ∧
      Together (Failure.Renamed r) Eq (s.enter c).outcome (s'.enter c').outcome := by
  have hhead := Lexed.head_mirrors hc
  cases hfirst : (Lexed.ofCursor c).head with
  | error e =>
    rw [hfirst] at hhead
    generalize hfirst' : (Lexed.ofCursor c').head = head' at hhead
    cases hhead with
    | error he =>
      simp only [Session.enter, hfirst, hfirst']
      exact ⟨h, .error he⟩
  | ok first =>
    rw [hfirst] at hhead
    generalize hfirst' : (Lexed.ofCursor c').head = head' at hhead
    cases hhead with
    | @ok _ first' _ =>
      have hread := h.reading hr hc
      have hout := hread.outcome
      obtain ⟨hdeclaring, hcalling, hnoted⟩ := h.noted hr hread
      rw [enter_of_head s hfirst, enter_of_head s' hfirst', hdeclaring, hcalling]
      generalize (s.reading c).outcome = outcome at hout
      generalize (s'.reading c').outcome = outcome' at hout
      cases hout with
      | error he => exact ⟨hnoted, .error he⟩
      | @ok finish finish' hfinish =>
        simp only
        split
        · exact ⟨hnoted, .error ((agrees_renamed hr).start hfinish (by simp))⟩
        · obtain ⟨hwf, -⟩ := noted_spec hs c
          have hnames : ∀ p ∈ callPairs (s.declaring c) (s.calling c),
              p.1 ∉ (s.noted c).graph.formulas ∧ p.2 ∉ (s.noted c).graph.formulas := by
            intro p hp
            obtain ⟨ha, hb⟩ := isName_of_callPairs hs.named c hp
            exact ⟨fun hf => hwf.apart _ hf ha, fun hf => hwf.apart _ hf hb⟩
          obtain ⟨hgraph, hrelate⟩ := hnoted.graph.relateCalls (s.declaring c) hnames
          generalize (s.noted c).graph.relateCalls _ _ = result at hgraph hrelate
          generalize (s'.noted c').graph.relateCalls _ _ = result' at hgraph hrelate
          obtain ⟨g, outcome⟩ := result
          obtain ⟨g', outcome'⟩ := result'
          cases hrelate with
          | error he => exact ⟨hnoted.withGraph hgraph, .error he⟩
          | ok _ =>
            refine ⟨hnoted.withGraph (hgraph.addFormula _ _ _ _), ?_⟩
            simp only [hfinish.tag]
            split
            · exact .ok rfl
            · exact .error ((agrees_renamed hr).expected .endOfText hfinish)

/-- **Lines one after another.** -/
theorem enterAll {cs cs' : List Cursor} (h : Renamed known r s s') (hs : s.WellFormed) (hr : Set.InjOn r known)
    (hcs : List.Forall₂ (fun c c' =>
      Lexed.Mirrors (Token.Renamed r known) (Failure.Renamed r) (.ofCursor c) (.ofCursor c')) cs cs') :
    Renamed known r (s.enterAll cs).1 (s'.enterAll cs').1 ∧
      Together (Failure.Renamed r) Eq (s.enterAll cs).2.2 (s'.enterAll cs').2.2 := by
  induction hcs generalizing s s' with
  | nil => exact ⟨h, .ok rfl⟩
  | @cons c c' cs cs' hc _ ih =>
    obtain ⟨hsession, hout⟩ := h.enter hs.graph hr hc
    rw [Session.enterAll, Session.enterAll]
    generalize (s'.enter c').outcome = outcome' at hout ⊢
    generalize (s.enter c).outcome = outcome at hout ⊢
    cases hout with
    | error he => exact ⟨hsession, .error he⟩
    | ok _ => exact ih hsession (hs.enter c)

/-- The undeclared names are renamed. -/
theorem undefined (h : Renamed known r s s') (hr : Set.InjOn r known) :
    s'.undefined = s.undefined.map r := by
  rw [Session.undefined, h.called, h.defined]
  exact filter_not_mem_map hr h.known.2 h.known.1

end Renamed

end Session

end EvalOrder
