import SqlKit.Proofs.Query.Leaves
import SqlKit.Proofs.Rendering.Alone

/-!
# The leaves of a predicate are read as conditions

What a condition has to test to ask the same as a leaf of a predicate is said by cases on the leaf
(`Asks`). A value is asked for through a placeholder, and the placeholders of a text are numbered in
their order, so that a leaf is read with the number `n` of arguments in front of it (`ReadAs`), and
the next one with those of the leaf added (`AllReadAs`). The SQL of each leaf is so read
(`Predicate.exists_readAs`): its row is that of the condition, and the condition is read back from
it.
-/

namespace SqlKit

open Grammar

/-! ## What is asked -/

/-- The name of a column as an operand. -/
def Column.operand (c : Column) : Operand := (Term.path ⟨c.name, []⟩).toOperand

/-- An equation of numbers. -/
def Condition.constant (left right : Int64) : Condition :=
  .comparison (Term.literal (.integer left)).toOperand .equal
    (Term.literal (.integer right)).toOperand

/-- A placeholder stands for the argument at its position, counted from one. -/
inductive StandsFor (arguments : List Value) : Value → Term → Prop
  | placeholder {n : Nat} {value : Value} (h : arguments[n]? = some value) :
    StandsFor arguments value (.placeholder ⟨none, n + 1⟩)

/-- A condition asks what a leaf of a predicate asks: it tests the column that the leaf means,
against placeholders for the values of the leaf. -/
inductive Asks (t : Table) (arguments : List Value) : Predicate → Condition → Prop
  | equal {column : String} {negated : Bool} {value : Value} {c : Column} {term : Term}
    (hColumn : t.resolve column = .ok c) (hValue : value.isNull = false)
    (hTerm : StandsFor arguments value term) :
    Asks t arguments (.equal column negated value)
      (.comparison c.operand (if negated then .notEqual else .equal) term.toOperand)
  | missing {column : String} {negated : Bool} {value : Value} {c : Column}
    (hColumn : t.resolve column = .ok c) (hValue : value.isNull = true) :
    Asks t arguments (.equal column negated value) (.isNull c.operand negated)
  | oneOf {column : String} {values : List Value} {c : Column} {terms : List Term}
    (hColumn : t.resolve column = .ok c) (hSome : values ≠ [])
    (hTerms : List.Forall₂ (StandsFor arguments) values terms) :
    Asks t arguments (.oneOf column values) (.oneOf c.operand false (terms.map Term.toExpr))
  | never {column : String} {c : Column} (hColumn : t.resolve column = .ok c) :
    Asks t arguments (.oneOf column []) (.constant 1 0)
  | like {column : String} {pattern : Value} {c : Column} {term : Term}
    (hColumn : t.resolve column = .ok c) (hTerm : StandsFor arguments pattern term) :
    Asks t arguments (.like column pattern) (.like c.operand false term.toOperand)
  | always : Asks t arguments (.all []) (.constant 1 1)

/-! ## Parts of conditions -/

namespace Grammar

open Parse

section Parts

variable {k : Nat}

/-- What is read back, whatever it starts with. -/
theorem Shown.self {α : Type} [Erasable α] {p : Print α} {m : Rules → Parse α} {level : Nat}
    {P : List TokenKind → Prop} {x : α} {gs : Script} (h : Shown k p m level P x gs) :
    Shown k p m level (fun _ => True) x (p.row x) := by
  obtain rfl := h.row
  exact h.imp fun _ _ => trivial

theorem shown_name {name : String} (h : IsName name) :
    Shown k .term term 1 (Opening (wordKind name)) (.path ⟨name, []⟩) [.name name] := by
  refine shown_pathOrCall (isNameKind_wordKind h) ⟨rfl, ?_, ?_, ?_⟩
  · simpa using h
  · exact (opening_path h : Leads 1 _ (.name name :: dotted []))
  · exact Reads.path h (List.forall_mem_nil _)

theorem shown_place (n : Nat) : Shown k .term term 1 (Opening (.symbol .question))
    (.placeholder ⟨none, n⟩) [.mark none] := by
  have hNumber : ∀ number, (Placeholder.mk none n).number = some number → number ≤ maxUnsigned :=
    nofun
  refine shown_unsigned (shown_unsignedTerm (fun t ht => ?_) (shown_placeholder hNumber)) ?_
  · rw [literalOf?, ht]
  · rintro (_ | _) <;> simp [signSymbol]

theorem shown_number {n : Nat} (hn : n < 2) : Shown k .term term 1
    (Opening (.integer (.ofNat n))) (.literal (.integer (.ofNat n))) [.integer n] := by
  refine shown_unsigned (shown_literal ?_ rfl ?_ rfl (by simp) fun t ht => ?_) (by simp)
  · obtain rfl | rfl : n = 0 ∨ n = 1 := by omega
    all_goals rfl
  · have hMax : Numeral.maxInteger = 2 ^ 63 - 1 := rfl
    rw [Script.fits_integer]
    omega
  · rw [literalOf?, ht]

theorem shown_placeOperand (n : Nat) :
    Shown k .operand operand 5 (Opens (nextState (.symbol .question)))
    (Term.placeholder ⟨none, n⟩).toOperand [.mark none] :=
  (shown_toOperand (shown_place n)).mono le_rfl (by decide)

/-- A name with a test behind it. -/
theorem shown_test {c : Column} (hc : IsName c.name) (x : Test) {hs : Script}
    (h : Tail k .test tests 4 5 x hs) :
    Shown k .condition condition 5 (Opens (nextState (wordKind c.name))) (x.of c.operand)
      (.name c.name :: hs) := by
  have hName := isNameKind_wordKind hc
  exact shown_condition (shown_toOperand (shown_name hc)) h (ne_of_isNameKind hName rfl)
    (ne_of_isNameKind hName rfl)

end Parts

end Grammar

/-! ## Placeholders in their order -/

/-- The placeholders of some arguments behind `n` others. -/
def placesFrom (n count : Nat) : List Term :=
  (List.range' (n + 1) count).map fun position => .placeholder ⟨none, position⟩

/-- The marks of these placeholders. -/
def marksFrom (n count : Nat) : List ParamMark := (List.range' (n + 1) count).map .place

theorem marksFrom_add (n count count' : Nat) :
    marksFrom n (count + count') = marksFrom n count ++ marksFrom (n + count) count' := by
  rw [marksFrom, marksFrom, marksFrom, ← List.map_append, Nat.add_right_comm]
  simp

theorem paramMarks_placesFrom (n count : Nat) :
    paramMarks (Expr.nodesAll ((placesFrom n count).map Term.toExpr)) = marksFrom n count := by
  induction count generalizing n with
  | zero => rfl
  | succ count ih => exact congrArg (ParamMark.place (n + 1) :: ·) (ih (n + 1))

/-- Placeholders are counted on in this order. -/
theorem follows_marksFrom (b : Bindings) (n count : Nat) :
    Follows ⟨b, n⟩ (marksFrom n count) ⟨b, n + count⟩ := by
  induction count generalizing n with
  | zero => exact .refl _
  | succ count ih =>
    rw [show n + (count + 1) = (n + 1) + count by omega]
    exact ⟨rfl, ih (n + 1)⟩

/-- Arguments stand at the positions of their placeholders. -/
theorem standsFor_placesFrom (values : List Value) : ∀ before after : List Value,
    List.Forall₂ (StandsFor (before ++ (values ++ after))) values
      (placesFrom before.length values.length) := by
  induction values with
  | nil => exact fun _ _ => .nil
  | cons value values ih =>
    intro before after
    refine .cons (.placeholder (by simp)) ?_
    have hRest := ih (before ++ [value]) after
    simp only [List.append_assoc, List.singleton_append, List.length_append,
      List.length_singleton] at hRest
    exact hRest

namespace Grammar

open Parse

/-- The members behind `IN` are placeholders. -/
theorem shown_places (n : Nat) {count : Nat} (hCount : count ≠ 0) :
    Shown 1 .members members 5 (fun _ => True) (.list ((placesFrom n count).map Term.toExpr))
      (commaRow (List.replicate count [.mark none]) ++ [.symbol .rightParen]) := by
  obtain ⟨count, rfl⟩ := Nat.exists_eq_succ_of_ne_zero hCount
  have hPlace : ∀ m, Shown 1 .expr Rules.expr 10 (Opens (nextState (.symbol .question)))
      (Term.placeholder ⟨none, m⟩).toExpr [.mark none] := fun m =>
    ((shown_toExpr (shown_place m) (by simp) (by simp)).again fun _ => rfl).mono le_rfl (by decide)
  have hRest : ∀ e ∈ (placesFrom (n + 1) count).map Term.toExpr,
      Shown 2 .expr Rules.expr 10 (Opens (nextState (.symbol .question))) e (Print.expr.row e) := by
    intro e he
    obtain ⟨t, ht, rfl⟩ := List.mem_map.mp he
    obtain ⟨m, -, rfl⟩ := List.mem_map.mp ht
    have hShown := (hPlace m).mono (by decide : 1 ≤ 2) le_rfl
    rwa [← hShown.row] at hShown
  have hFirst := hPlace (n + 1)
  rw [← hFirst.row] at hFirst
  have hList := hFirst.commas hRest le_rfl
  have hMembers := shown_memberList hList (fun ks hks => by rw [hks.isQueryStart]; rfl)
    fun ks hks => hks.ne (by simp [nextState, State.current]) rfl
  have hRow : Print.expr.commas.row ((placesFrom n (count + 1)).map Term.toExpr) =
      commaRow (List.replicate (count + 1) [.mark none]) := by
    have hRows : ((placesFrom n (count + 1)).map Term.toExpr).map Print.expr.row =
        (List.range' (n + 1) (count + 1)).map fun _ => [.mark none] := by
      rw [placesFrom, List.map_map, List.map_map]
      rfl
    rw [List.map_const', List.length_range'] at hRows
    exact congrArg commaRow hRows
  rw [← hRow]
  exact hMembers

end Grammar

/-! ## Leaves -/

/-- The SQL of a leaf is read as a condition that asks what the leaf does, and whose placeholders
are counted on from `n`. -/
structure ReadAs (t : Table) (n : Nat) (p : Predicate) (b : BoundSql) (x : Condition) : Prop where
  asks : ∀ before after : List Value, before.length = n →
    Asks t (before ++ (b.arguments ++ after)) p x
  row : b.HasRow x.row
  shown : Shown 0 .condition condition 5 (fun _ => True) x x.row
  marks : paramMarks x.nodes = marksFrom n b.arguments.length
  placeless : Placeless x

theorem Column.placeless (c : Column) : Placeless c.operand := (Placeless.path _).toOperand

namespace ReadAs

variable {t : Table} {c : Column} {column : String} {n : Nat}

theorem of_shown {p : Predicate} {b : BoundSql} {x : Condition} {P : List TokenKind → Prop}
    {gs : Script} (h : Shown 0 .condition condition 5 P x gs) (hRow : b.HasRow gs)
    (hAsks : ∀ before after : List Value, before.length = n →
      Asks t (before ++ (b.arguments ++ after)) p x)
    (hMarks : paramMarks x.nodes = marksFrom n b.arguments.length) (hPlaceless : Placeless x) :
    ReadAs t n p b x := by
  obtain rfl := h.row
  exact ⟨hAsks, hRow, h.self, hMarks, hPlaceless⟩

theorem comparison (hc : IsName c.name) (hColumn : t.resolve column = .ok c) (negated : Bool)
    {value : Value} (hValue : value.isNull = false) :
    ReadAs t n (.equal column negated value) (.equality c negated value)
      (.comparison c.operand (if negated then .notEqual else .equal)
        (Term.placeholder ⟨none, n + 1⟩).toOperand) := by
  have hArguments : (BoundSql.equality c negated value).arguments = [value] := by
    rw [BoundSql.equality, if_neg (by simp [hValue])]
  have hShown := shown_test (k := 0) hc (.comparison (if negated then .notEqual else .equal) _)
    (tail_comparison (shown_placeOperand (n + 1)))
  refine of_shown hShown ?_ ?_ ?_ (c.placeless.comparison (Placeless.placeholder _).toOperand _)
  · have hRow := BoundSql.hasRow_comparison hc negated hValue
    cases negated <;> exact hRow
  · rintro before after rfl
    rw [hArguments]
    exact .equal hColumn hValue (.placeholder (by simp))
  · rw [hArguments]
    rfl

theorem missing (hc : IsName c.name) (hColumn : t.resolve column = .ok c) (negated : Bool)
    {value : Value} (hValue : value.isNull = true) :
    ReadAs t n (.equal column negated value) (.equality c negated value)
      (.isNull c.operand negated) := by
  have hArguments : (BoundSql.equality c negated value).arguments = [] := by
    rw [BoundSql.equality, if_pos hValue]
  have hShown := shown_test (k := 0) hc (.isNull negated) tail_isNull
  refine of_shown hShown (BoundSql.hasRow_missing hc negated hValue) ?_ ?_ (c.placeless.isNull _)
  · exact fun before after _ => .missing hColumn hValue
  · rw [hArguments]
    rfl

theorem likeness (hc : IsName c.name) (hColumn : t.resolve column = .ok c) (pattern : Value) :
    ReadAs t n (.like column pattern) (.likeness c pattern)
      (.like c.operand false (Term.placeholder ⟨none, n + 1⟩).toOperand) := by
  have hEscape : Tail 1 (Print.operand.afterWord .ESCAPE)
      (fun rules => Parse.after .ESCAPE (operand rules)) 4 5 none [] :=
    tail_none (by decide) (by decide)
  have hPattern := (shown_toOperand (k := 1) (shown_place (n + 1))).pair hEscape
  have hShown := shown_test (k := 0) hc (.like false _) (tail_like hPattern)
  refine of_shown hShown (BoundSql.hasRow_likeness hc pattern) ?_ rfl
    (c.placeless.like (Placeless.placeholder _).toOperand _)
  rintro before after rfl
  exact .like hColumn (.placeholder (by simp [BoundSql.likeness]))

theorem membership (hc : IsName c.name) (hColumn : t.resolve column = .ok c) {values : List Value}
    (hSome : values ≠ []) :
    ReadAs t n (.oneOf column values) (.membership c values)
      (.oneOf c.operand false ((placesFrom n values.length).map Term.toExpr)) := by
  have hArguments : (BoundSql.membership c values).arguments = values := by
    rw [BoundSql.membership, if_neg (by simpa using hSome)]
  have hMembers := shown_places n (fun h => hSome (List.length_eq_zero_iff.mp h))
  have hShown := shown_test (k := 0) hc (.oneOf false _) (tail_oneOf hMembers)
  refine of_shown hShown ?_ ?_ ?_ (c.placeless.oneOf ?_ _)
  · have hRow := BoundSql.hasRow_membership hc hSome
    rw [List.map_const'] at hRow
    exact hRow
  · rintro before after rfl
    rw [hArguments]
    exact .oneOf hColumn hSome (standsFor_placesFrom values before after)
  · rw [hArguments]
    exact paramMarks_placesFrom n values.length
  · intro e he
    obtain ⟨u, hu, rfl⟩ := List.mem_map.mp he
    obtain ⟨m, -, rfl⟩ := List.mem_map.mp hu
    exact (Placeless.placeholder _).toExpr

/-- An equation of numbers asks nothing of a column. -/
theorem constant {p : Predicate} {b : BoundSql} {m : Nat} (hm : m < 2)
    (hSql : b = ⟨"1=" ++ toString m, []⟩)
    (hAsks : ∀ arguments, Asks t arguments p (.constant 1 (.ofNat m))) :
    ReadAs t n p b (.constant 1 (.ofNat m)) := by
  have hRight : Shown 1 .operand operand 5 (Opens (nextState (.integer (.ofNat m))))
      (Term.literal (.integer (.ofNat m))).toOperand [.integer m] :=
    (shown_toOperand (shown_number hm)).mono le_rfl (by decide)
  have hShown := shown_condition (x := .comparison .equal _)
    (shown_toOperand (k := 0) (shown_number (by decide : 1 < 2))) (tail_comparison hRight)
    (by simp [nextState, State.current]) (by simp [nextState, State.current])
  obtain rfl := hSql
  refine of_shown hShown (BoundSql.hasRow_constant hm rfl) (fun _ _ _ => hAsks _) rfl ?_
  exact (Placeless.literal _).toOperand.comparison (Placeless.literal _).toOperand _

end ReadAs

/-- The SQL of a leaf is read as a condition that asks what the leaf does. -/
theorem Predicate.exists_readAs {t : Table} (ht : t.Named) {p : Predicate} (hp : p.IsLeaf)
    {b : BoundSql} (h : p.bind t = .ok b) (n : Nat) : ∃ x, ReadAs t n p b x := by
  cases p with
  | equal column negated value =>
    obtain ⟨c, hColumn, rfl, hc⟩ := ht.of_resolve h
    cases hValue : value.isNull with
    | true => exact ⟨_, .missing hc hColumn negated hValue⟩
    | false => exact ⟨_, .comparison hc hColumn negated hValue⟩
  | oneOf column values =>
    obtain ⟨c, hColumn, rfl, hc⟩ := ht.of_resolve h
    by_cases hSome : values = []
    · subst hSome
      exact ⟨_, .constant (by decide : 0 < 2) rfl fun _ => .never hColumn⟩
    · exact ⟨_, .membership hc hColumn hSome⟩
  | like column pattern =>
    obtain ⟨c, hColumn, rfl, hc⟩ := ht.of_resolve h
    exact ⟨_, .likeness hc hColumn pattern⟩
  | all parts =>
    obtain rfl : parts = [] := hp
    obtain rfl := Except.ok.inj h
    exact ⟨_, .constant (by decide : 1 < 2) rfl fun _ => .always⟩

/-! ## All leaves -/

/-- The SQL of several leaves is read as conditions, whose placeholders are counted on from `n`. -/
inductive AllReadAs (t : Table) : Nat → List Predicate → List BoundSql → List Condition → Prop
  | nil {n : Nat} : AllReadAs t n [] [] []
  | cons {n : Nat} {p : Predicate} {b : BoundSql} {x : Condition} {ps : List Predicate}
    {bs : List BoundSql} {xs : List Condition} (h : ReadAs t n p b x)
    (hRest : AllReadAs t (n + b.arguments.length) ps bs xs) :
    AllReadAs t n (p :: ps) (b :: bs) (x :: xs)

theorem Predicate.exists_allReadAs {t : Table} (ht : t.Named) {ps : List Predicate}
    (hps : ∀ p ∈ ps, p.IsLeaf) {bs : List BoundSql} (h : bindAll t ps = .ok bs) (n : Nat) :
    ∃ xs, AllReadAs t n ps bs xs := by
  induction ps generalizing bs n with
  | nil =>
    obtain rfl := Except.ok.inj h
    exact ⟨[], .nil⟩
  | cons p ps ih =>
    obtain ⟨b, bs, hFirst, hRest, rfl⟩ := bindAll_cons h
    obtain ⟨hp, hps⟩ := List.forall_mem_cons.mp hps
    obtain ⟨x, hx⟩ := exists_readAs ht hp hFirst n
    obtain ⟨xs, hxs⟩ := ih hps hRest (n + b.arguments.length)
    exact ⟨x :: xs, .cons hx hxs⟩

namespace AllReadAs

variable {t : Table} {n : Nat} {ps : List Predicate} {bs : List BoundSql} {xs : List Condition}

/-- Each leaf finds its arguments among all of them. -/
theorem asks (h : AllReadAs t n ps bs xs) : ∀ before after : List Value, before.length = n →
    List.Forall₂ (Asks t (before ++ (bs.flatMap (·.arguments) ++ after))) ps xs := by
  induction h with
  | nil => exact fun _ _ _ => .nil
  | @cons n p b x ps bs xs hFirst _ ih =>
    intro before after hLength
    rw [List.flatMap_cons, List.append_assoc]
    refine .cons (hFirst.asks before _ hLength) ?_
    have hBehind := ih (before ++ b.arguments) after (by rw [List.length_append, hLength])
    rwa [List.append_assoc] at hBehind

theorem rows (h : AllReadAs t n ps bs xs) :
    List.Forall₂ BoundSql.HasRow bs (xs.map Condition.row) := by
  induction h with
  | nil => exact .nil
  | cons hFirst _ ih => exact .cons hFirst.row ih

theorem marks (h : AllReadAs t n ps bs xs) : paramMarks (xs.flatMap Condition.nodes) =
    marksFrom n (bs.flatMap (·.arguments)).length := by
  induction h with
  | nil => rfl
  | cons hFirst _ ih =>
    rw [List.flatMap_cons, paramMarks_append, hFirst.marks, ih, List.flatMap_cons,
      List.length_append, marksFrom_add]

theorem forall_mem (h : AllReadAs t n ps bs xs) : ∀ x ∈ xs, Placeless x ∧
    Shown 0 .condition condition 5 (fun _ => True) x x.row := by
  induction h with
  | nil => simp
  | cons hFirst _ ih => exact List.forall_mem_cons.mpr ⟨⟨hFirst.placeless, hFirst.shown⟩, ih⟩

end AllReadAs

end SqlKit
