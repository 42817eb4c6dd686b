import SqlKit.Proofs.Batch.Yielding
import SqlKit.Proofs.Grammar.Spans

/-!
# The spans of the statements of a text

A statement that is read without an error has the span of its segment, and the spans of its parts
nest (`parse_spans`). Both come from the tokens: a part is read from tokens in a row, those inside
of it from some of them, and the tokens of a text do not overlap (`aligned_segment`).
-/

namespace SqlKit

open Grammar

/-- The tokens of a segment stand one behind the other. -/
theorem aligned_segment {text : String} {seg : Segment} (h : seg ∈ segments text) :
    Aligned seg.tokens where
  nonempty t ht := (placed_tokensOf text t (segments_mem h ht)).nonempty
  pairwise := (List.pairwise_append.mp ((segments_pairwise text).1 seg h).pairwise).1

variable {options : ParseOptions} {text : String} {x : Statement}

/-- A statement that is read without an error is read from all tokens of a segment: its span is that
of these tokens, and its fragments lie among them. -/
theorem exists_segment_of_mem (h : x ∈ (parse options text).statements) :
    ∃ seg ∈ segments text, (∃ b, (seg.read b).1 = ⟨x, none⟩) ∧ x.span.Covers seg.tokens ∧
      AllLie seg.tokens x.fragments := by
  obtain ⟨seg, hSegment, b, hRead, rules, hRules, s', hRun, hError, hTokens⟩ :=
    exists_run_of_mem (P := Rules.Locates) ⟨.fail, .fail, .fail⟩
      (fun _ h => ⟨locates_expr h, locates_select h, locates_joinClause h⟩) h
  have hAligned : Aligned (seg.start b).tokens := aligned_segment hSegment
  have hAll : ∀ {us}, (seg.start b).tokens = us ++ s'.tokens → us = seg.tokens := fun hSplit => by
    rw [hTokens, List.append_nil] at hSplit
    exact hSplit.symm
  obtain ⟨us, hSplit, hCovers⟩ := (spans_statementOfKind _ hAligned).result hRun hError
  obtain ⟨vs, hSplit', hLie⟩ :=
    (locates_statementOfKind hRules _ [] hAligned .nil).result hRun hError
  rw [hAll hSplit] at hCovers
  rw [hAll hSplit'] at hLie
  exact ⟨seg, hSegment, ⟨b, hRead⟩, hCovers, hLie⟩

/-- **Spans cover and nest.** A statement that is read without an error reaches from the start of
the first token of its segment to the end of the last one. Every part of it that keeps a span
reaches from the start of a token to the end of a token, is not empty, and contains the spans of all
parts inside of it. -/
theorem parse_spans (h : x ∈ (parse options text).statements) :
    ∃ seg ∈ segments text, (∃ b, (seg.read b).1 = ⟨x, none⟩) ∧ x.span.Covers seg.tokens ∧
      ∀ f ∈ x.fragments, ∀ span ∈ f.span?,
        (∃ t ∈ seg.tokens, span.first = t.span.first) ∧
        (∃ t ∈ seg.tokens, span.last = t.span.last) ∧
          span.first.offset < span.last.offset ∧
            ∀ g ∈ f.fragments, ∀ inner ∈ g.span?, span.Contains inner := by
  obtain ⟨seg, hSegment, hRead, hCovers, hLie⟩ := exists_segment_of_mem h
  refine ⟨seg, hSegment, hRead, hCovers, fun f hf span hSpan => ?_⟩
  obtain ⟨run, hInfix, hRun, hInside⟩ := hLie f hf span hSpan
  have hAligned : Aligned run := (aligned_segment hSegment).sublist hInfix.sublist
  have hNonempty := hAligned.nonempty_of_covers hRun
  have hContains : ∀ g ∈ f.fragments, ∀ inner ∈ g.span?, span.Contains inner :=
    fun g hg inner hInner => by
    obtain ⟨part, hPart, hInnerRun⟩ := hInside g hg inner hInner
    exact hAligned.contains_of_infix hPart hRun hInnerRun
  obtain ⟨t, ht, u, hu, hFirst, hLast⟩ := hRun
  have hStart : t ∈ seg.tokens := hInfix.subset (List.mem_of_mem_head? ht)
  have hEnd : u ∈ seg.tokens := hInfix.subset (List.mem_of_mem_getLast? hu)
  exact ⟨⟨t, hStart, hFirst⟩, ⟨u, hEnd, hLast⟩, hNonempty, hContains⟩

/-- A column with a parameter for its default, and a constraint with a query inside. -/
def sampleSpans : String :=
  "CREATE TABLE t (a INTEGER DEFAULT @p:int, CHECK (EXISTS (SELECT b FROM u)))"

theorem parse_spans_sampleSpans :
    ∃ x ∈ (parse .standard sampleSpans).statements,
      (x.fragments.filterMap Fragment.span?).length = 5 ∧ x.span = .onLine 0 75 1 1 ∧
        ∀ f ∈ x.fragments, ∀ span ∈ f.span?, span.first.offset < span.last.offset ∧
          x.span.Contains span := by
  obtain ⟨x, hx⟩ := List.exists_mem_of_length_pos
    (show 0 < (parse .standard sampleSpans).statements.length by decide +kernel)
  have hCount : ∀ x ∈ (parse .standard sampleSpans).statements,
      (x.fragments.filterMap Fragment.span?).length = 5 := by decide +kernel
  have hTokens : ∀ seg ∈ segments sampleSpans,
      seg.tokens.head?.map (·.span.first) = some (Span.onLine 0 75 1 1).first ∧
        seg.tokens.getLast?.map (·.span.last) = some (Span.onLine 0 75 1 1).last := by
          decide +kernel
  obtain ⟨seg, hSegment, -, ⟨t, ht, u, hu, hFirst, hLast⟩, hParts⟩ := parse_spans hx
  obtain ⟨hStart, hEnd⟩ := hTokens seg hSegment
  rw [Option.mem_def.mp ht] at hStart
  rw [Option.mem_def.mp hu] at hEnd
  have hSpan : x.span = .onLine 0 75 1 1 :=
    congrArg₂ Span.mk (hFirst.trans (Option.some.inj hStart)) (hLast.trans (Option.some.inj hEnd))
  obtain ⟨-, -, -, hInside⟩ := hParts (.statement x) List.mem_cons_self x.span rfl
  refine ⟨x, hx, hCount x hx, hSpan, fun f hf span hOwn => ?_⟩
  exact ⟨(hParts f hf span hOwn).2.2.1, hInside f hf span hOwn⟩

end SqlKit
