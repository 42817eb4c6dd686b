import Mathlib.Logic.Function.Iterate
import SqlKit.Proofs.Token.Shift

/-!
# Looking ahead changes nothing

A `Lexer` may look at tokens before it takes them, as many and as far ahead as it is asked to. What
it returns is told by the tokens of the text alone, with its end again and again behind them
(`tokenAt`): `Lexer.Reads` says where in this sequence a lexer stands, every call keeps it, and so
each call returns the token at its place (`Lexer.call_after`).
-/

namespace SqlKit

/-- The tokens of a text by their places in it. Behind the last one stands the end of the text,
again and again. -/
def tokenAt (text : String) (i : Nat) : Token :=
  (Lexer.ofString text).tokenize.1.getD i (.endOfInput (endOf text))

theorem tokenAt_eq (text : String) (i : Nat) :
    tokenAt text i = (tokensOf text).getD i (.endOfInput (endOf text)) := by
  rw [tokenAt, Lexer.tokenize_ofString, List.getD_eq_getElem?_getD, List.getD_eq_getElem?_getD]
  rcases Nat.lt_trichotomy i (tokensOf text).length with h | rfl | h
  · rw [List.getElem?_append_left h]
  · simp
  · rw [List.getElem?_eq_none (by simp; omega), List.getElem?_eq_none (by omega)]

/-! ## Scanning -/

namespace Cursor

/-- The place behind the next token. -/
def pass (c : Cursor) : Cursor := (Lexer.scan c).2

theorem scan_of_none {c : Cursor} (h : c.next? = none) :
    Lexer.scan c = (.endOfInput c.finish, ⟨c.finish, []⟩) := by
  rw [Lexer.scan, h]

theorem scan_of_some {c after : Cursor} {t : Token} (h : c.next? = some (t, after)) :
    Lexer.scan c = (t, after) := by
  rw [Lexer.scan, h]

/-- At the end of the text scanning goes no further. -/
theorem scan_at_end (p : Position) : Lexer.scan ⟨p, []⟩ = (.endOfInput p, ⟨p, []⟩) := by
  have hFinish : Cursor.finish ⟨p, []⟩ = p := Position.advance_nil p _
  rw [scan_of_none (token?_eq_none_iff.mpr (by simp [skipGap])), hFinish]

theorem iterate_pass_at_end (p : Position) (i : Nat) : pass^[i] ⟨p, []⟩ = ⟨p, []⟩ :=
  Function.iterate_fixed (congrArg Prod.snd (scan_at_end p)) i

/-- Scanning again and again cuts off the tokens one by one, and then the end of the text for
ever. -/
theorem scan_iterate_pass (c : Cursor) (i : Nat) :
    (Lexer.scan (pass^[i] c)).1 = c.tokens.getD i (.endOfInput c.finish) := by
  fun_induction tokens c generalizing i with
  | case1 c hNone =>
    cases i with
    | zero => simp [scan_of_none hNone]
    | succ i =>
      rw [Function.iterate_succ_apply, pass, scan_of_none hNone, iterate_pass_at_end, scan_at_end]
      simp
  | case2 c t after hSome ih =>
    cases i with
    | zero => simp [scan_of_some hSome]
    | succ i =>
      rw [Function.iterate_succ_apply, pass, scan_of_some hSome, ih, finish_of_next? hSome,
        List.getD_cons_succ]

end Cursor

/-! ## Calls -/

namespace Lexer

/-- What a lexer may be asked for: to take the next token, or to look at a token ahead. -/
inductive Call where
  | next
  | peek
  | peekNth (n : Nat)
  deriving Repr, DecidableEq, Inhabited

/-- Whether a call takes a token. -/
def Call.isNext : Call → Bool
  | next => true
  | peek | peekNth _ => false

/-- How far ahead of the next token the token of a call stands. -/
def Call.distance : Call → Nat
  | next | peek => 0
  | peekNth n => n

/-- Answers a call. -/
def call (l : Lexer) : Call → Token × Lexer
  | .next => l.next
  | .peek => l.peek
  | .peekNth n => l.peekNth n

/-- The lexer behind some calls. -/
def after (l : Lexer) (calls : List Call) : Lexer := calls.foldl (fun l c => (l.call c).2) l

/-- A lexer has taken `taken` tokens of a text: the tokens that it holds come next, and its cursor
stands behind them. -/
structure Reads (text : String) (taken : Nat) (l : Lexer) : Prop where
  ahead : l.ahead = (List.range' taken l.ahead.length).map (tokenAt text)
  cursor : l.cursor = Cursor.pass^[taken + l.ahead.length] (.ofString text)

namespace Reads

variable {text : String} {taken : Nat} {l : Lexer}

theorem ofString (text : String) : Reads text 0 (.ofString text) := ⟨rfl, rfl⟩

/-- What is scanned comes behind the tokens that are held. -/
theorem scan (h : Reads text taken l) :
    (Lexer.scan l.cursor).1 = tokenAt text (taken + l.ahead.length) := by
  rw [h.cursor, Cursor.scan_iterate_pass, tokenAt_eq]
  rfl

/-- One more token is held. -/
theorem hold (h : Reads text taken l) :
    Reads text taken ⟨(Lexer.scan l.cursor).2, l.ahead ++ [(Lexer.scan l.cursor).1]⟩ where
  ahead := by
    rw [List.length_append, List.length_singleton, List.range'_1_concat, List.map_append, ← h.ahead,
      h.scan]
    rfl
  cursor := by
    rw [List.length_append, List.length_singleton, ← Nat.add_assoc,
      Function.iterate_succ_apply', ← h.cursor]
    rfl

/-- A token that is held is the one at its place. -/
theorem getD (h : Reads text taken l) {n : Nat} (hReach : n < l.ahead.length) (finish : Token) :
    l.ahead.getD n finish = tokenAt text (taken + n) := by
  rw [h.ahead, List.getD_eq_getElem?_getD, List.getElem?_map, List.getElem?_range' hReach,
    Nat.one_mul]
  rfl

theorem lookAhead (h : Reads text taken l) (count : Nat) :
    Reads text taken (l.lookAhead count) := by
  induction count generalizing l with
  | zero => exact h
  | succ count ih => exact ih h.hold

theorem next (h : Reads text taken l) :
    l.next.1 = tokenAt text taken ∧ Reads text (taken + 1) l.next.2 := by
  unfold Lexer.next
  split
  · next token ahead hAhead =>
    have hHeld := h.ahead
    rw [hAhead, List.length_cons, List.range'_succ, List.map_cons] at hHeld
    obtain ⟨hToken, hRest⟩ := List.cons.inj hHeld
    refine ⟨hToken, hRest, ?_⟩
    have hCursor := h.cursor
    rwa [hAhead, List.length_cons, ← Nat.add_assoc, Nat.add_right_comm] at hCursor
  · next hAhead =>
    have hScan := h.scan
    have hCursor := h.cursor
    rw [hAhead, List.length_nil, Nat.add_zero] at hScan hCursor
    refine ⟨hScan, rfl, ?_⟩
    rw [List.length_nil, Nat.add_zero, Function.iterate_succ_apply', ← hCursor]
    rfl

end Reads

theorem length_lookAhead (l : Lexer) (count : Nat) :
    (l.lookAhead count).ahead.length = l.ahead.length + count := by
  induction count generalizing l with
  | zero => rfl
  | succ count ih =>
    rw [lookAhead, ih, List.length_append, List.length_singleton, Nat.add_assoc, Nat.add_comm 1]

theorem Reads.peekNth {text : String} {taken : Nat} {l : Lexer} (h : Reads text taken l) (n : Nat) :
    (l.peekNth n).1 = tokenAt text (taken + n) ∧ Reads text taken (l.peekNth n).2 := by
  have hHeld := h.lookAhead (n + 1 - l.ahead.length)
  have hLength := length_lookAhead l (n + 1 - l.ahead.length)
  have hReach : n < (l.lookAhead (n + 1 - l.ahead.length)).ahead.length := by omega
  exact ⟨hHeld.getD hReach _, hHeld⟩

/-- One call returns the token at its place, and takes a token or none. -/
theorem Reads.call {text : String} {taken : Nat} {l : Lexer} (h : Reads text taken l) (c : Call) :
    (l.call c).1 = tokenAt text (taken + c.distance) ∧
      Reads text (taken + if c.isNext then 1 else 0) (l.call c).2 := by
  cases c with
  | next => exact h.next
  | peek => exact h.peekNth 0
  | peekNth n => exact h.peekNth n

/-- After any calls the tokens are taken that were asked for. -/
theorem Reads.after {text : String} {taken : Nat} {l : Lexer} (h : Reads text taken l)
    (calls : List Call) : Reads text (taken + calls.countP Call.isNext) (l.after calls) := by
  induction calls generalizing taken l with
  | nil => exact h
  | cons c calls ih =>
    rw [List.countP_cons, Nat.add_comm (calls.countP _), ← Nat.add_assoc]
    exact ih (h.call c).2

/-- **Looking ahead is transparent.** Whatever was asked of a lexer before, to take tokens or to
look at tokens however far ahead, the next call returns a token of the text by its place: as many
tokens behind the first one as were taken, and as many more as it looks ahead. Behind the last token
that is the end of the text, again and again. -/
theorem call_after (text : String) (calls : List Call) (c : Call) :
    (((ofString text).after calls).call c).1 =
      tokenAt text (calls.countP Call.isNext + c.distance) := by
  have hReads := (Reads.ofString text).after calls
  rw [Nat.zero_add] at hReads
  exact (hReads.call c).1

example : (((ofString "a").after [.peekNth 4, .next, .next, .peek]).call .next).1.kind =
    .endOfInput := by decide

end Lexer

end SqlKit
