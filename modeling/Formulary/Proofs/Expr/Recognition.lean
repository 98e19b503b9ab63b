import Formulary.Proofs.Expr.Complete

namespace Formulary

/-! The reader accepts exactly the statements of the grammar, each with the tree it denotes. -/

/-- The tokens in front of the first end mark. -/
def TokenKind.beforeFinish : List TokenKind → List TokenKind
  | [] | .finish :: _ => []
  | kind :: rest => kind :: beforeFinish rest

/-- There is no token behind these, or an end mark is the next. -/
def TokenKind.Ends (rest : List TokenKind) : Prop := rest.headD .finish = .finish

namespace TokenKind

theorem exists_beforeFinish (kinds : List TokenKind) :
    ∃ rest, kinds = beforeFinish kinds ++ rest ∧ Ends rest := by
  induction kinds with
  | nil => exact ⟨[], rfl, rfl⟩
  | cons kind kinds ih =>
    obtain ⟨rest, same, ends⟩ := ih
    cases kind with
    | finish => exact ⟨.finish :: kinds, rfl, rfl⟩
    | _ => exact ⟨rest, congrArg _ same, ends⟩

theorem beforeFinish_append {words rest : List TokenKind} (inner : .finish ∉ words)
    (ends : Ends rest) : beforeFinish (words ++ rest) = words := by
  induction words with
  | nil =>
    cases rest with
    | nil => rfl
    | cons kind rest =>
      obtain rfl : kind = .finish := ends
      rfl
  | cons kind words ih =>
    cases kind with
    | finish => exact absurd List.mem_cons_self inner
    | _ => exact congrArg _ (ih (List.not_mem_of_not_mem_cons inner))

end TokenKind

namespace Expr

open ParseM TokenKind

theorem readAll_sound (depth : Nat) (given : List TokenKind) :
    Runs (readAll depth) given
      (fun expr rest => Takes (.term 0) given expr rest ∧ Ends rest) True := by
  refine .bind ((readers_sound depth).1 given) fun expr rest taken => .next fun token head => ?_
  split
  · next finish => exact .pure ⟨taken, head.symm.trans finish⟩
  · exact .unexpected trivial

theorem readAll_complete {depth : Nat} {expr : Expr} {words rest : List TokenKind}
    (derived : Derives (.term 0 expr) words) (bound : words.length ≤ depth) (ends : Ends rest) :
    Runs (readAll depth) (words ++ rest) (Leaves expr rest) False := by
  have stops : Stops 0 rest := by rw [Stops, ends]; exact Nat.le_refl 0
  refine .bind ((readers_complete depth).1 derived bound stops) ?_
  rintro _ _ ⟨rfl, rfl⟩
  refine .next fun token head => ?_
  rw [head, ends]
  exact .pure ⟨rfl, rfl⟩

theorem ofTokens_outcome {tokens : List Token} {result : Expr → List TokenKind → Prop}
    {failure : Prop}
    (runs : Runs (readAll tokens.length) (tokens.map Token.kind) result failure) :
    match ofTokens tokens with
    | .ok (expr, _) => ∃ rest, result expr rest
    | .error _ => failure := by
  have outcome := runs SpanMap.empty (rfl : Cursor.kinds ⟨tokens, 0⟩ = _)
  unfold ofTokens
  rcases run : readAll tokens.length ⟨tokens, 0⟩ SpanMap.empty with ⟨_ | ⟨expr, after⟩, spans⟩ <;>
    simp only [run] at outcome
  · exact outcome
  · exact ⟨_, outcome⟩

theorem derives_of_ofTokens {tokens : List Token} {expr : Expr} {spans : SpanMap}
    (read : ofTokens tokens = .ok (expr, spans)) :
    Derives (.term 0 expr) (beforeFinish (tokens.map Token.kind)) := by
  have outcome := ofTokens_outcome (readAll_sound tokens.length (tokens.map Token.kind))
  rw [read] at outcome
  obtain ⟨rest, ⟨words, same, derived⟩, ends⟩ := outcome
  rwa [same, beforeFinish_append derived.finish_notMem ends]

theorem ofTokens_of_derives {tokens : List Token} {expr : Expr}
    (derived : Derives (.term 0 expr) (beforeFinish (tokens.map Token.kind))) :
    ∃ spans, ofTokens tokens = .ok (expr, spans) := by
  obtain ⟨rest, same, ends⟩ := exists_beforeFinish (tokens.map Token.kind)
  have bound : (beforeFinish (tokens.map Token.kind)).length ≤ tokens.length := by
    have lengths := congrArg List.length same
    simp only [List.length_map, List.length_append] at lengths
    omega
  have runs := readAll_complete derived bound ends
  rw [← same] at runs
  have outcome := ofTokens_outcome runs
  rcases read : ofTokens tokens with _ | ⟨found, spans⟩ <;> simp only [read] at outcome
  obtain ⟨_, rfl, _⟩ := outcome
  exact ⟨spans, rfl⟩

/-- A token list is read, as this tree, exactly when the tokens in front of its end mark are
    derived as a statement that denotes the tree. In particular an attempt at a definition that
    turns out to be a comparison changes neither what is read nor its tree. -/
theorem ofTokens_ok_iff_derives (tokens : List Token) (tree : Expr) :
    (∃ spans, ofTokens tokens = .ok (tree, spans)) ↔
      Derives (.term 0 tree) (beforeFinish (tokens.map Token.kind)) :=
  ⟨fun ⟨_, read⟩ => derives_of_ofTokens read, ofTokens_of_derives⟩

end Expr

end Formulary
