import EvalOrder.Proofs.Entry
import EvalOrder.Proofs.Mirror

/-!
# Where a line stands

Reading a line looks at the kinds and texts of its tokens; their places are only used to say where it failed.
So a change of tokens that keeps kinds and texts changes nothing but the failures (`Carries`), and what holds of
every failure at a token holds of every failure of a line.

This is used twice. Texts may be put before and behind another text: then the places in it move by what stands
before, and nothing else changes (`embed`). And no line fails because a name is undeclared: that is only said of
a whole text.

Results:
* `ofLexed_map`: reading and changing tokens.
* `enter_map`: entering a line and changing its tokens.
* `ofCursor_embed`, **`enter_embed`**, `enterAll_embed`: lines between other texts.
* `enter_not_undeclares`, `enterAll_not_undeclares`: no line fails for an undeclared name.
-/

namespace EvalOrder

/-! ## Changing tokens -/

/-- Change what is said of malformed text. -/
def Failure.revise (f : Malformed → Malformed) : Failure → Failure
  | malformed m => malformed (f m)
  | e => e

/-- The outcome with what is said of malformed text changed. -/
def revised {α : Type} (f : Malformed → Malformed) (outcome : Except Failure α) : Except Failure α :=
  outcome.mapError (Failure.revise f)

@[simp] theorem revised_ok {α : Type} (f : Malformed → Malformed) (a : α) :
    revised f (.ok a : Except Failure α) = .ok a := rfl

@[simp] theorem revised_error {α : Type} (f : Malformed → Malformed) (e : Failure) :
    revised f (.error e : Except Failure α) = .error (e.revise f) := rfl

/-- Change all tokens, and what is said of malformed text. -/
def Lexed.map (f : Token → Token) (φ : Malformed → Malformed) : Lexed → Lexed
  | token t rest => token (f t) (rest.map f φ)
  | done t => done (f t)
  | broken e => broken (e.revise φ)

/-- Change the token after a declaration. -/
def Reading.map (f : Token → Token) (φ : Malformed → Malformed) (r : Reading) : Reading :=
  ⟨r.names, r.expressions, revised φ (r.outcome.map f)⟩

/-- The change keeps kinds and texts, and changes failures along with tokens. A line does not fail because names
are undeclared. -/
structure Carries (f : Token → Token) (φ : Malformed → Malformed) : Prop where
  tag : ∀ t, (f t).tag = t.tag
  text : ∀ t, (f t).text = t.text
  label : ∀ a b, Session.labelOf (f a) (f b) = Session.labelOf a b
  expected : ∀ t want, (f t).expected want = (t.expected want).revise φ
  start : ∀ t cause, (∀ names, cause ≠ .undefined names) →
    (f t).start.malformed cause = (t.start.malformed cause).revise φ

section Carries

variable {f : Token → Token} {φ : Malformed → Malformed}

/-- Then tokens and failures correspond to what they are changed to. -/
theorem Carries.agrees (h : Carries f φ) :
    Agrees id Set.univ (fun t t' => t' = f t) (fun e e' => e' = e.revise φ) where
  injOn := Set.injOn_id _
  tag ht := ht ▸ h.tag _
  text ht _ := ⟨trivial, ht ▸ h.text _⟩
  expected want ht := ht ▸ h.expected _ want
  start ht hcause := ht ▸ h.start _ _ hcause

theorem Together.eq_revised {α β : Type} {g : α → β} {a : Except Failure α} {b : Except Failure β}
    (h : Together (fun e e' => e' = e.revise φ) (fun x y => y = g x) a b) : b = revised φ (a.map g) := by
  cases h with
  | ok h => rw [h]; rfl
  | error h => rw [h]; rfl

theorem Lexed.mirrors_map (f : Token → Token) (φ : Malformed → Malformed) :
    ∀ s : Lexed, Mirrors (fun t t' => t' = f t) (fun e e' => e' = e.revise φ) s (s.map f φ)
  | token _ rest => .token rfl (rest.mirrors_map f φ)
  | done _ => .done rfl
  | broken _ => .broken rfl

theorem Lexed.head_map (s : Lexed) : (s.map f φ).head = revised φ (s.head.map f) :=
  (head_mirrors (s.mirrors_map f φ)).eq_revised

/-- **Reading a line and changing its tokens.** -/
theorem Reading.ofLexed_map (h : Carries f φ) (defined : List String) (s : Lexed) :
    ofLexed defined (s.map f φ) = (ofLexed defined s).map f φ := by
  have hmirrors : Mirrors id Set.univ _ _ (ofLexed defined s) (ofLexed (defined.map id) (s.map f φ)) :=
    ofLexed_mirrors h.agrees (s.mirrors_map f φ) fun _ _ => trivial
  rw [List.map_id] at hmirrors
  obtain ⟨-, hnames, hexpressions, hout⟩ := hmirrors
  simp only [List.map_id_fun, id] at hnames hexpressions
  rw [map, ← hnames, ← hexpressions, ← hout.eq_revised]

end Carries

/-! ## Entering a line -/

/-- Relating names does not say that text is malformed. -/
theorem Graph.revised_relateCalls (φ : Malformed → Malformed) (declared : List Handle) :
    ∀ (pairs : List (Handle × Handle)) (g : Graph),
      revised φ (g.relateCalls declared pairs).2 = (g.relateCalls declared pairs).2
  | [], g => rfl
  | (name, call) :: pairs, g => by
    have hlabel : ∀ {g : Graph} {h : Handle} {e : Failure}, g.label h = .error e → e.revise φ = e := by
      intro g h e he
      unfold label get at he
      cases hv : g.vertices[h]? with
      | some v =>
        rw [hv] at he
        cases he
      | none =>
        rw [hv] at he
        cases he
        rfl
    rw [relateCalls]
    cases hadd : g.addRelated name call with
    | error e =>
      unfold addRelated modify get at hadd
      cases hv : g.vertices[name]? with
      | some v =>
        rw [hv] at hadd
        cases hadd
      | none =>
        rw [hv] at hadd
        cases hadd
        rfl
    | ok g' =>
      simp only
      split
      · cases hn : g'.label name with
        | error e => simp [hlabel hn]
        | ok n =>
          cases hc : g'.label call with
          | error e => simp [hlabel hc]
          | ok c => rfl
      · exact revised_relateCalls φ declared pairs g'

namespace Session

/-- **Entering a line and changing its tokens.** -/
theorem enter_map {f : Token → Token} {φ : Malformed → Malformed} (h : Carries f φ) {c c' : Cursor}
    (hlex : Lexed.ofCursor c' = (Lexed.ofCursor c).map f φ) (s : Session) :
    (s.enter c').session = (s.enter c).session ∧ (s.enter c').outcome = revised φ (s.enter c).outcome := by
  have hhead : (Lexed.ofCursor c').head = revised φ ((Lexed.ofCursor c).head.map f) := by
    rw [hlex, Lexed.head_map]
  have hread : s.reading c' = (s.reading c).map f φ := by
    rw [reading, hlex, Reading.ofLexed_map h, reading]
  have hnote : s.note (s.reading c') = s.note (s.reading c) := by rw [hread]; rfl
  cases hfirst : (Lexed.ofCursor c).head with
  | error e =>
    rw [hfirst] at hhead
    simp only [enter, hfirst, hhead]
    exact ⟨rfl, rfl⟩
  | ok first =>
    rw [hfirst] at hhead
    have hout : (s.reading c').outcome = revised φ ((s.reading c).outcome.map f) := by rw [hread]; rfl
    have hrelate := Graph.revised_relateCalls φ (s.declaring c) (callPairs (s.declaring c) (s.calling c))
      (s.noted c).graph
    rw [enter_of_head s hfirst, enter_of_head s hhead, hout, noted, declaring, calling, hnote, ← noted,
      ← declaring, ← calling]
    cases (s.reading c).outcome with
    | error e => exact ⟨rfl, rfl⟩
    | ok finish =>
      simp only [Except.map, revised_ok]
      split
      · rw [h.start finish _ (by simp)]
        exact ⟨rfl, rfl⟩
      · generalize (s.noted c).graph.relateCalls (s.declaring c) (callPairs (s.declaring c) (s.calling c)) =
          result at hrelate
        obtain ⟨g, outcome⟩ := result
        cases outcome with
        | error e => exact ⟨rfl, hrelate.symm⟩
        | ok u =>
          simp only [h.label, h.tag, h.expected]
          refine ⟨trivial, ?_⟩
          split <;> rfl

end Session

/-! ## A text between other texts -/

namespace Place

/-- The place when `before` is put in front of the text. -/
def moved (before : List Char) (p : Place) : Place :=
  ⟨p.index + before.length, p.row + before.count '\n', p.column⟩

theorem after_moved (before : List Char) (p : Place) (ch : Char) :
    (p.moved before).after ch = (p.after ch).moved before := by
  have hrow : p.row + 1 + before.count '\n' = p.row + before.count '\n' + 1 := by omega
  have hindex : p.index + 1 + before.length = p.index + before.length + 1 := by omega
  unfold after
  split
  · simp only [moved, hrow, hindex]
  · simp only [moved, hindex]

theorem afterAll_moved (before cs : List Char) (p : Place) :
    (p.moved before).afterAll cs = (p.afterAll cs).moved before := by
  induction cs generalizing p with
  | nil => rfl
  | cons ch cs ih => rw [afterAll_cons, after_moved, ih, afterAll_cons]

theorem moved_append (before more : List Char) (p : Place) :
    p.moved (before ++ more) = (p.moved more).moved before := by
  have hrow : p.row + (before ++ more).count '\n' = p.row + more.count '\n' + before.count '\n' := by
    rw [List.count_append]
    omega
  have hindex : p.index + (before ++ more).length = p.index + more.length + before.length := by
    rw [List.length_append]
    omega
  simp only [moved, hrow, hindex]

end Place

/-- What is said when `before` is put in front of the text. -/
def Malformed.moved (before : List Char) (m : Malformed) : Malformed := { m with place := m.place.moved before }

namespace Cursor

/-- The cursor when `before` is put in front of its text and `after` behind it. -/
def embed (before after : List Char) (c : Cursor) : Cursor where
  toPlace := c.toPlace.moved before
  text := (before ++ (c.text.toList ++ after)).toArray
  stop := some (min c.limit c.text.size + before.length)

variable (before after : List Char) (c : Cursor)

/-- It sees the same. -/
@[simp] theorem window_embed : (c.embed before after).window = c.window := by
  have hlimit : (c.embed before after).limit = before.length + min c.limit c.text.size := by
    simp only [limit, embed, Option.getD_some]
    omega
  have hindex : (c.embed before after).index = before.length + c.index := Nat.add_comm _ _
  have htext : (c.embed before after).text.toList = before ++ (c.text.toList ++ after) := rfl
  have hsize : min c.limit c.text.size ≤ c.text.toList.length := Nat.min_le_right _ _
  rw [window_eq, window_eq, hlimit, hindex, htext, List.take_length_add_append, List.drop_length_add_append,
    List.take_append_of_le_length hsize]
  refine congrArg (List.drop c.index) ?_
  rw [List.take_eq_take_iff, Array.length_toList]
  omega

theorem bounded_embed : (c.embed before after).Bounded := by
  simp only [Bounded, limit, embed, Option.getD_some, List.size_toArray, List.length_append,
    Array.length_toList]
  omega

theorem past_embed (cs : List Char) : (c.embed before after).past cs = (c.past cs).embed before after := by
  simp only [past, embed, Place.afterAll_moved]
  rfl

/-- So the texts between cursors are the same. -/
theorem take_embed (d : Cursor) :
    (c.embed before after).take ((d.embed before after).index - (c.embed before after).index) =
      c.take (d.index - c.index) := by
  have hindex : (d.embed before after).index - (c.embed before after).index = d.index - c.index :=
    Nat.add_sub_add_right _ _ _
  rw [take_eq, take_eq, window_embed, hindex]

end Cursor

/-- The token when texts are put before and behind its text. -/
def Token.embed (before after : List Char) (t : Token) : Token :=
  ⟨t.tag, t.start.embed before after, t.follow.embed before after⟩

theorem carries_embed (before after : List Char) : Carries (Token.embed before after) (Malformed.moved before) where
  tag _ := rfl
  text t := Cursor.take_embed before after t.start t.follow
  label a b := by
    unfold Session.labelOf
    exact congrArg (fun s : String => String.ofList (s.toList.filter (· ≠ '\n')))
      (Cursor.take_embed before after a.start b.start)
  expected _ _ := rfl
  start _ _ _ := rfl

namespace Lexed

theorem ofCursor_of_error {c : Cursor} (h : c.Bounded) {cause : SyntaxCause}
    (hk : (lexeme c.window).kind = .error cause) :
    ofCursor c = broken (((lexeme c.window).follow c).malformed cause) := by
  have hscan := Token.scan_eq h
  rw [Lexeme.tokenAt, hk] at hscan
  rw [ofCursor]
  split
  · rename_i e he
    rw [← Except.error.inj (hscan.symm.trans he)]
  · rename_i t ht
    cases hscan.symm.trans ht

theorem ofCursor_of_ok {c : Cursor} (h : c.Bounded) {tag : Tag} (hk : (lexeme c.window).kind = .ok tag) :
    ofCursor c =
      if tag = .endOfText then done ⟨tag, (lexeme c.window).start c, (lexeme c.window).follow c⟩
      else token ⟨tag, (lexeme c.window).start c, (lexeme c.window).follow c⟩
        (ofCursor ((lexeme c.window).follow c)) := by
  have hscan := Token.scan_eq h
  rw [Lexeme.tokenAt, hk] at hscan
  rw [ofCursor]
  split
  · rename_i e he
    cases hscan.symm.trans he
  · rename_i t ht
    obtain rfl := Except.ok.inj (hscan.symm.trans ht)
    split <;> rfl

/-- **A text between other texts** has the same tokens, at other places. -/
theorem ofCursor_embed (before after : List Char) {c : Cursor} (h : c.Bounded) :
    ofCursor (c.embed before after) =
      (ofCursor c).map (Token.embed before after) (Malformed.moved before) := by
  have hstart : ∀ (l : Lexeme) (c : Cursor), l.start (c.embed before after) = (l.start c).embed before after :=
    fun l c => c.past_embed before after l.blank
  have hfollow : ∀ (l : Lexeme) (c : Cursor), l.follow (c.embed before after) = (l.follow c).embed before after := by
    intro l c
    rw [Lexeme.follow, hstart, Cursor.past_embed, Lexeme.follow]
  refine ofCursor_induction
    (P := fun c s => ofCursor (c.embed before after) = s.map (Token.embed before after) (Malformed.moved before))
    (fun c cause hb hk => ?_) (fun c hb hk => ?_) (fun c tag hb hk ht ih => ?_) c h
  · rw [← Cursor.window_embed before after c] at hk
    rw [ofCursor_of_error (c.bounded_embed before after) hk, Cursor.window_embed, hfollow]
    rfl
  · have hend := lexeme_of_endOfText hk
    rw [← Cursor.window_embed before after c] at hk
    rw [ofCursor_of_ok (c.bounded_embed before after) hk, if_pos rfl, Cursor.window_embed, hfollow, hstart, hend]
    rfl
  · rw [← Cursor.window_embed before after c] at hk
    rw [ofCursor_of_ok (c.bounded_embed before after) hk, if_neg ht, Cursor.window_embed, hfollow, hstart, ih]
    rfl

end Lexed

namespace Session

variable (before after : List Char)

/-- **A line between other texts** does the same, and fails at another place. -/
theorem enter_embed {c : Cursor} (h : c.Bounded) (s : Session) :
    (s.enter (c.embed before after)).session = (s.enter c).session ∧
      (s.enter (c.embed before after)).outcome = revised (Malformed.moved before) (s.enter c).outcome :=
  s.enter_map (carries_embed before after) (Lexed.ofCursor_embed before after h)

/-- So do lines one after another. -/
theorem enterAll_embed {cs : List Cursor} (h : ∀ c ∈ cs, c.Bounded) (s : Session) :
    (s.enterAll (cs.map (Cursor.embed before after))).1 = (s.enterAll cs).1 ∧
      (s.enterAll (cs.map (Cursor.embed before after))).2.2 =
        revised (Malformed.moved before) (s.enterAll cs).2.2 := by
  induction cs generalizing s with
  | nil => exact ⟨rfl, rfl⟩
  | cons c cs ih =>
    obtain ⟨hc, hcs⟩ := List.forall_mem_cons.mp h
    obtain ⟨hsession, hout⟩ := s.enter_embed before after hc
    rw [List.map_cons, enterAll, enterAll, hout, hsession]
    cases (s.enter c).outcome with
    | error e => exact ⟨rfl, rfl⟩
    | ok u => exact ih hcs (s.enter c).session

end Session

/-! ## Undeclared names -/

/-- The text is malformed because names are undeclared. -/
def Failure.Undeclares (e : Failure) : Prop := ∃ place names, e = .malformed ⟨place, .undefined names⟩

/-- Say something else of undeclared names. -/
def Malformed.hideUndefined (m : Malformed) : Malformed :=
  match m.cause with
  | .undefined _ => { m with cause := .unknownToken }
  | _ => m

theorem carries_hideUndefined : Carries id Malformed.hideUndefined where
  tag _ := rfl
  text _ := rfl
  label _ _ := rfl
  expected _ _ := rfl
  start t cause h := by
    cases cause with
    | undefined names => exact absurd rfl (h names)
    | _ => rfl

theorem Lexeme.ofChar_kind_ne_undefined (blank : List Char) (ch : Char) (cs : List Char) (names : List String) :
    (ofChar blank ch cs).kind ≠ .error (.undefined names) := by
  unfold ofChar
  repeat' split
  all_goals simp

theorem lexeme_kind_ne_undefined (cs : List Char) (names : List String) :
    (lexeme cs).kind ≠ .error (.undefined names) := by
  unfold lexeme
  split
  · simp
  · exact Lexeme.ofChar_kind_ne_undefined _ _ _ _

theorem Lexed.map_hideUndefined {c : Cursor} (h : c.Bounded) :
    ofCursor c = (ofCursor c).map id Malformed.hideUndefined := by
  refine ofCursor_induction (P := fun _ s => s = s.map id Malformed.hideUndefined)
    (fun c cause _ hk => ?_) (fun c _ _ => rfl) (fun c tag _ _ _ ih => congrArg (token _) ih) c h
  cases cause with
  | undefined names => exact absurd hk (lexeme_kind_ne_undefined _ _)
  | _ => rfl

namespace Session

/-- No line fails because a name is undeclared. -/
theorem enter_not_undeclares {c : Cursor} (h : c.Bounded) (s : Session) {e : Failure}
    (he : (s.enter c).outcome = .error e) : ¬ e.Undeclares := by
  rintro ⟨place, names, rfl⟩
  have hsame := (s.enter_map carries_hideUndefined (Lexed.map_hideUndefined h)).2
  rw [he] at hsame
  cases hsame

theorem enterAll_not_undeclares {cs : List Cursor} (h : ∀ c ∈ cs, c.Bounded) (s : Session) {e : Failure}
    (he : (s.enterAll cs).2.2 = .error e) : ¬ e.Undeclares := by
  obtain ⟨c, hc, s', -, he'⟩ := exists_enter_error he
  exact s'.enter_not_undeclares (h c hc) he'

end Session

end EvalOrder
