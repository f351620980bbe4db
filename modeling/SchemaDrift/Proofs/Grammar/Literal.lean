import SchemaDrift.Proofs.Grammar.Match
/-!
The string literals of the grammar: which texts they are, what the rule for them reads, and the
literals of a text that is looked through from its start.
-/

set_option autoImplicit false

namespace SchemaDrift.Grammar

/-! ### One literal -/

-- What stands in a literal after the quote that opens it, with the quote that closes it.
inductive LiteralBody : List Char → Prop
  | close : LiteralBody ['\'']
  | doubled (s : List Char) (rest : LiteralBody s) : LiteralBody ('\'' :: '\'' :: s)
  | escaped (c : Char) (s : List Char) (rest : LiteralBody s) : LiteralBody ('\\' :: c :: s)
  | other (c : Char) (s : List Char) (quote : c ≠ '\'') (escape : c ≠ '\\')
      (rest : LiteralBody s) : LiteralBody (c :: s)

def StringLiteral (l : List Char) : Prop := ∃ body, l = '\'' :: body ∧ LiteralBody body

def closing : List Char → List Char
  | [] => []
  | '\'' :: '\'' :: s => closing s
  | '\'' :: s => '\'' :: s
  | '\\' :: _ :: s => closing s
  | _ :: s => closing s

theorem closing_body (body : List Char) (whole : LiteralBody body) (s : List Char)
    (apart : s.head? ≠ some '\'') : closing (body ++ s) = '\'' :: s := by
  induction whole with
  | close =>
      refine closing.eq_3 s fun t double => apart ?_
      rw [double]
      rfl
  | doubled _ _ ih => exact ih
  | escaped c _ _ ih => exact ih
  | other c t quote escape _ ih =>
      rw [List.cons_append, closing.eq_5]
      · exact ih
      · exact fun _ same => absurd same quote
      · exact fun same => quote same
      · exact fun _ _ same => absurd same escape

theorem body_of_closing (t s : List Char) (closed : closing t = '\'' :: s) :
    ∃ body, t = body ++ s ∧ LiteralBody body ∧ s.head? ≠ some '\'' := by
  fun_induction closing t with
  | case1 => cases closed
  | case2 t ih =>
      obtain ⟨body, rfl, whole, apart⟩ := ih closed
      exact ⟨_, rfl, .doubled body whole, apart⟩
  | case3 t single =>
      cases closed
      refine ⟨_, rfl, .close, fun head => ?_⟩
      obtain ⟨u, rfl⟩ := List.head?_eq_some_iff.mp head
      exact single u rfl
  | case4 c t ih =>
      obtain ⟨body, rfl, whole, apart⟩ := ih closed
      exact ⟨_, rfl, .escaped c body whole, apart⟩
  | case5 c t _ quote escape ih =>
      obtain ⟨body, rfl, whole, apart⟩ := ih closed
      refine ⟨_, rfl, .other c body ?_ ?_ whole, apart⟩
      · exact fun same => quote same
      · rintro rfl
        cases whole <;> exact escape _ _ rfl rfl

theorem body_last (body : List Char) (whole : LiteralBody body) : body.getLast? = some '\'' := by
  have later (c : Char) (s : List Char) (last : s.getLast? = some '\'') :
      (c :: s).getLast? = some '\'' := by
    rw [List.getLast?_cons, last]
    rfl
  induction whole with
  | close => rfl
  | doubled s _ ih => exact later _ _ (later _ _ ih)
  | escaped c s _ ih => exact later _ _ (later _ _ ih)
  | other c s _ _ _ ih => exact later _ _ ih

theorem literal_before (l t s back : List Char) (whole : StringLiteral l) (plain : '\'' ∉ back)
    (same : l ++ t = s ++ back) : ∃ u, s = l ++ u ∧ t = u ++ back := by
  rcases List.append_eq_append_iff.mp same with ⟨u, front, rest⟩ | ⟨u, front, rest⟩
  · exact ⟨u, front, rest⟩
  · cases u with
    | nil => exact ⟨[], by simpa using front.symm, by simpa using rest.symm⟩
    | cons c u =>
        obtain ⟨body, rfl, body_whole⟩ := whole
        have last := body_last body body_whole
        have ends : ('\'' :: body).getLast? = some '\'' := by
          rw [List.getLast?_cons, last]
          rfl
        rw [front, List.getLast?_append_of_ne_nil _ (by simp)] at ends
        exact absurd (rest ▸ List.mem_append_left t (List.mem_of_getLast? ends)) plain

theorem apart_front (s t : List Char) (apart : (s ++ t).head? ≠ some '\'') : s.head? ≠ some '\'' := by
  intro head
  exact apart (by rw [List.head?_append, head]; rfl)

def afterLiteral? : List Char → Option (List Char)
  | '\'' :: s => (closing s).tail?
  | _ => none

theorem closing_quote (s rest : List Char) (c : Char) (closed : closing s = c :: rest) : c = '\'' := by
  fun_induction closing s with
  | case1 => cases closed
  | case2 _ ih => exact ih closed
  | case3 => exact (List.cons.inj closed).1.symm
  | case4 _ _ ih => exact ih closed
  | case5 _ _ _ _ _ ih => exact ih closed

theorem after_literal_iff (s rest : List Char) : afterLiteral? s = some rest ↔
    ∃ l, s = l ++ rest ∧ StringLiteral l ∧ rest.head? ≠ some '\'' := by
  constructor
  · intro found
    unfold afterLiteral? at found
    split at found
    case h_2 => cases found
    case h_1 t =>
      cases closed : closing t with
      | nil =>
          rw [closed] at found
          cases found
      | cons c r =>
          rw [closed] at found
          cases found
          obtain rfl := closing_quote t rest c closed
          obtain ⟨body, rfl, whole, apart⟩ := body_of_closing t rest closed
          exact ⟨'\'' :: body, rfl, ⟨body, rfl, whole⟩, apart⟩
  · rintro ⟨l, rfl, ⟨body, rfl, whole⟩, apart⟩
    rw [List.cons_append, afterLiteral?, closing_body body whole rest apart]
    rfl

theorem after_literal_length (s rest : List Char) (found : afterLiteral? s = some rest) :
    rest.length < s.length := by
  obtain ⟨l, rfl, ⟨body, rfl, -⟩, -⟩ := (after_literal_iff s rest).mp found
  simp only [List.length_append, List.length_cons]
  omega

def literals (s : List Char) : List (List Char) :=
  match s with
  | [] => []
  | c :: t =>
    match _h : afterLiteral? (c :: t) with
    | some rest => (c :: t).take (t.length + 1 - rest.length) :: literals rest
    | none => literals t
termination_by s.length
decreasing_by
  · exact after_literal_length _ _ _h
  · exact Nat.lt_succ_self _

/-! ### The rule of the grammar -/

def literalChar : Expr :=
  (.char '\'' ++ .char '\'') ||| (.char '\\' ++ .anyChar) ||| .except (.char '\'')

theorem run_char (fuel : Nat) (layout : Layout) (a : Char) (s : List Char) :
    run (fuel + 1) layout (.char a) (a :: s) = .matched s [] := by
  simp [run, Expr.char, CharSet.has]

theorem run_other_char (fuel : Nat) (layout : Layout) (a c : Char) (s : List Char) (other : c ≠ a) :
    run (fuel + 1) layout (.char a) (c :: s) = .failed := by
  simp [run, Expr.char, CharSet.has, other]

theorem run_doubled (fuel : Nat) (s : List Char) :
    run (fuel + 5) .token literalChar ('\'' :: '\'' :: s) = .matched s [] := rfl

theorem run_escaped (fuel : Nat) (c : Char) (s : List Char) :
    run (fuel + 5) .token literalChar ('\\' :: c :: s) = .matched s [] := rfl

theorem run_quote (fuel : Nat) (s : List Char) (apart : s.head? ≠ some '\'') :
    run (fuel + 5) .token literalChar ('\'' :: s) = .failed := by
  have single : run (fuel + 2) .token (.char '\'') s = .failed := by
    cases s with
    | nil => rfl
    | cons d s => exact run_other_char _ _ _ _ _ fun same => apart (congrArg some same)
  have doubled : run (fuel + 3) .token (.char '\'' ++ .char '\'') ('\'' :: s) = .failed := by
    show ((run (fuel + 2) .token (.char '\'') s).prepend []) = .failed
    rw [single]
    rfl
  show (((run (fuel + 3) .token (.char '\'' ++ .char '\'') ('\'' :: s)).orElse .failed).orElse
    .failed) = .failed
  rw [doubled]
  rfl

theorem run_other (fuel : Nat) (c : Char) (s : List Char) (quote : c ≠ '\'')
    (escape : c = '\\' → s = []) :
    run (fuel + 5) .token literalChar (c :: s) = .matched s [] := by
  have escaped : run (fuel + 3) .token (.char '\\' ++ .anyChar) (c :: s) = .failed := by
    by_cases same : c = '\\'
    · rw [same, escape same]
      rfl
    · show (run (fuel + 2) .token (.char '\\') (c :: s)).andThen _ = .failed
      rw [run_other_char _ _ _ _ _ same]
      rfl
  have doubled : run (fuel + 3) .token (.char '\'' ++ .char '\'') (c :: s) = .failed := by
    show (run (fuel + 2) .token (.char '\'') (c :: s)).andThen _ = .failed
    rw [run_other_char _ _ _ _ _ quote]
    rfl
  have except : run (fuel + 4) .token (.except (.char '\'')) (c :: s) = .matched s [] := by
    show (run (fuel + 3) .token (.notAt (.char '\'')) (c :: s)).andThen _ = .matched s []
    rw [run, run_other_char _ _ _ _ _ quote]
    rfl
  show ((run (fuel + 3) .token (.char '\'' ++ .char '\'') (c :: s)).orElse
    (run (fuel + 3) .token (.char '\\' ++ .anyChar) (c :: s))).orElse
      (run (fuel + 4) .token (.except (.char '\'')) (c :: s)) = .matched s []
  rw [doubled, escaped, except]
  rfl

theorem run_literal_chars (fuel : Nat) (s : List Char) (enough : s.length + 6 ≤ fuel) :
    run fuel .token (.many literalChar) s = .matched (closing s) [] := by
  have step (fuel : Nat) (s t : List Char)
      (one : run (fuel + 5) .token literalChar s = .matched t [])
      (later : run (fuel + 5) .token (.many literalChar) t = .matched (closing t) []) :
      run (fuel + 6) .token (.many literalChar) s = .matched (closing t) [] := by
    rw [run, one, Outcome.andThen, more_in_token, later]
    rfl
  have stop (fuel : Nat) (s : List Char) (one : run (fuel + 5) .token literalChar s = .failed) :
      run (fuel + 6) .token (.many literalChar) s = .matched s [] := by
    rw [run, one]
    rfl
  induction fuel using Nat.strong_induction_on generalizing s with
  | _ fuel ih =>
    obtain ⟨fuel, rfl⟩ : ∃ n, fuel = n + 6 := ⟨fuel - 6, by omega⟩
    fun_cases closing s with
    | case1 => rfl
    | case2 t =>
        simp only [List.length_cons] at enough
        exact step fuel _ t (run_doubled fuel t) (ih _ (by omega) t (by omega))
    | case3 t single =>
        refine stop fuel _ (run_quote fuel t fun head => ?_)
        obtain ⟨u, double⟩ := List.head?_eq_some_iff.mp head
        exact single u double
    | case4 c t =>
        simp only [List.length_cons] at enough
        exact step fuel _ t (run_escaped fuel c t) (ih _ (by omega) t (by omega))
    | case5 c t _ quote escape =>
        simp only [List.length_cons] at enough
        refine step fuel _ t (run_other fuel c t (fun same => quote same) fun same => ?_)
          (ih _ (by omega) t (by omega))
        cases t with
        | nil => rfl
        | cons d t => exact absurd rfl (escape d t same)

theorem run_string_lit (fuel : Nat) (layout : Layout) (s : List Char) (enough : s.length + 10 ≤ fuel) :
    run fuel layout (.rule .stringLit) s =
      match afterLiteral? s with
      | some rest => .matched rest (layout.keep (.node .stringLit s rest []))
      | none => .failed := by
  obtain ⟨n, rfl⟩ : ∃ n, fuel = n + 10 := ⟨fuel - 10, by omega⟩
  have opened : run (n + 10) layout (.rule .stringLit) s =
      (((run (n + 7) .token (.char '\'') s).andThen fun t trees =>
        (run (n + 7) .token (.many literalChar) t).prepend trees).andThen fun t trees =>
          (run (n + 8) .token (.char '\'') t).prepend trees).andThen fun rest trees =>
            .matched rest (layout.keep (.node .stringLit s rest trees)) := rfl
  rw [opened]
  cases s with
  | nil => rfl
  | cons c t =>
      by_cases quote : c = '\''
      · subst quote
        simp only [List.length_cons] at enough
        rw [run_char, Outcome.andThen, run_literal_chars _ _ (by omega), afterLiteral?]
        cases closed : closing t with
        | nil => rfl
        | cons d rest =>
            obtain rfl := closing_quote t rest d closed
            rfl
      · have none : afterLiteral? (c :: t) = none :=
          afterLiteral?.eq_2 _ fun u same => quote (List.cons.inj same).1
        rw [run_other_char _ _ _ _ _ quote, none]
        rfl

theorem string_lit_read (fuel : Nat) (layout : Layout) (s rest : List Char) (trees : List Tree)
    (met : run fuel layout (.rule .stringLit) s = .matched rest trees) :
    afterLiteral? s = some rest ∧ trees = layout.keep (.node .stringLit s rest []) := by
  have more := run_more_fuel fuel (s.length + 10) layout (.rule .stringLit) s (by simp [met])
  rw [met, run_string_lit _ _ _ (Nat.le_add_left ..)] at more
  split at more
  · cases more
    exact ⟨‹_›, rfl⟩
  · cases more

end SchemaDrift.Grammar
