import SqlKit.Proofs.Simulation.Table

/-!
# Like texts read as statements

The readers of whole statements keep every simulation: from related states a statement is read on
both sides, alike up to what is erased, and the states behind them are related.
-/

namespace SqlKit.Grammar

open Grammar.Similar

variable {e : Erasure} {S : Simulation e} {rules : Rules}

theorem similar_conflictResolution :
    Similar S Eq conflictResolution conflictResolution :=
  (eatKeyword .OR).ite (askFor ⟨fun _ => rfl, fun _ _ => rfl, rfl, rfl⟩) (pure rfl)

theorem similar_insertSource (h : rules.Keep S) :
    Similar S (Like e) (insertSource rules) (insertSource rules) := by
  refine (eatKeyword .VALUES).ite ((separated (similar_valueRow h)).bind fun _ _ hRows => pure ?_)
    ((eatKeyword .DEFAULT).ite ((expectKeyword .VALUES).bind fun _ _ _ => pure rfl)
    ((similar_select h).bind fun _ _ hQuery => pure ?_))
  · simp_all [Like, Erasable.erase, InsertSource.erase]
  · simp_all [Like, Erasable.erase, InsertSource.erase]

theorem similar_insertMode : Similar S Eq insertMode insertMode := by
  refine (eatKeyword .REPLACE).ite (pure rfl) ((expectKeyword .INSERT).bind fun _ _ _ =>
    similar_conflictResolution.bind ?_)
  rintro resolution _ rfl
  exact pure rfl

theorem similar_insert (h : rules.Keep S) : Similar S (Like e) (insert rules) (insert rules) := by
  refine spanned (similar_insertMode.bind ?_)
  rintro mode _ rfl
  refine (expectKeyword .INTO).bind fun _ _ _ => (qualifiedName .table).bind fun _ _ hTable =>
    optionalColumnList.bind fun _ _ hColumns => (similar_insertSource h).bind
    fun _ _ hSource => pure fun _ _ hSpan => ?_
  simp_all [Like, Erasable.erase, Insert.erase]

theorem similar_assignment (h : rules.Keep S) :
    Similar S (Like e) (assignment rules) (assignment rules) := by
  refine (name .column).bind fun _ _ hColumn => (expect (by simp)).bind fun _ _ _ =>
    (similar_expr h).bind fun _ _ hValue => pure ?_
  simp_all [Like, Erasable.erase, Assignment.erase]

theorem similar_update (h : rules.Keep S) : Similar S (Like e) (update rules) (update rules) := by
  refine spanned ((expectKeyword .UPDATE).bind fun _ _ _ => similar_conflictResolution.bind ?_)
  rintro resolution _ rfl
  refine (qualifiedName .table).bind fun _ _ hTable => (expectKeyword .SET).bind fun _ _ _ =>
    (separated (similar_assignment h)).bind fun _ _ hAssignments => (after (similar_expr h)).bind
    fun _ _ hCondition => pure fun _ _ hSpan => ?_
  simp_all [Like, Erasable.erase, Update.erase]

theorem similar_delete (h : rules.Keep S) : Similar S (Like e) (delete rules) (delete rules) := by
  refine spanned ((expectKeyword .DELETE).bind fun _ _ _ => (expectKeyword .FROM).bind fun _ _ _ =>
    (qualifiedName .table).bind fun _ _ hTable => (after (similar_expr h)).bind
    fun _ _ hCondition => pure fun _ _ hSpan => ?_)
  simp_all [Like, Erasable.erase, Delete.erase]

/-- A statement by the kind of its first token. -/
def statementFor (rules : Rules) : TokenKind → Parse Statement
  | .keyword .CREATE => .createTable <$> createTable rules
  | .keyword .ALTER => .alterTable <$> alterTable rules
  | .keyword .DROP => .dropTable <$> dropTable
  | .keyword .INSERT | .keyword .REPLACE => .insert <$> insert rules
  | .keyword .UPDATE => .update <$> update rules
  | .keyword .DELETE => .delete <$> delete rules
  | _ => .select <$> select rules

theorem statementOfKind_eq (rules : Rules) :
    statementOfKind rules = (do statementFor rules (← Parse.kind)) := rfl

theorem similar_statementFor (h : rules.Keep S) (k : TokenKind) :
    Similar S (Like e) (statementFor rules k) (statementFor rules k) := by
  unfold statementFor
  split
  · exact (similar_createTable h).map fun _ _ h => congrArg Statement.createTable h
  · exact (similar_alterTable h).map fun _ _ h => congrArg Statement.alterTable h
  · exact similar_dropTable.map fun _ _ h => congrArg Statement.dropTable h
  · exact (similar_insert h).map fun _ _ h => congrArg Statement.insert h
  · exact (similar_insert h).map fun _ _ h => congrArg Statement.insert h
  · exact (similar_update h).map fun _ _ h => congrArg Statement.update h
  · exact (similar_delete h).map fun _ _ h => congrArg Statement.delete h
  · exact (similar_select h).map fun _ _ h => congrArg Statement.select h

theorem similar_statementOfKind (h : rules.Keep S) :
    Similar S (Like e) (statementOfKind rules) (statementOfKind rules) := by
  rw [statementOfKind_eq]
  refine kind_bind fun {s t} hs => ?_
  rw [← TokenKind.form_congr (statementFor rules) (fun _ _ => rfl) rfl (S.kind hs)]
  exact similar_statementFor h _ hs

/-- Like statements are read from related states. -/
theorem similar_statement (h : rules.Keep S) :
    Similar S (Like e) (statement rules) (statement rules) := by
  have hLeft : Similar S Eq (Parse.look fun s => !s.atEnd) (Parse.look fun s => !s.atEnd) := by
    refine look fun {s t} hs => ?_
    rw [State.atEnd, State.atEnd, Bool.eq_iff_iff, Bool.not_eq_true', Bool.not_eq_true',
      Bool.eq_false_iff, Bool.eq_false_iff, ne_eq, ne_eq, endsStatement_iff, endsStatement_iff,
      S.isEnd_iff hs]
  refine (similar_statementOfKind h).bind fun _ _ hResult => hLeft.ite ?_ (pure hResult)
  exact (fail _).bind fun _ _ _ => pure hResult

end SqlKit.Grammar
