import SchemaDrift.Proofs.Ddl.Corresponding
/-!
A comment in the place of a space. The schema stays the same where the space is only read as layout.
It does not where the space is part of a text that is kept, with the comments in it.
-/

set_option autoImplicit false

namespace SchemaDrift

open Grammar

-- The space between the two parts of a text is read as layout and in no text that is kept.
def Grammar.passesOver (front back : List Char) : Bool :=
  spares back.length (fuelFor (front ++ ' ' :: back)) .free (.rule .document) (front ++ ' ' :: back)

theorem commented_tree (front back body : List Char) (closed : ¬['*', '/'] <:+: body)
    (passed : passesOver front back = true) (tree : Tree)
    (found : parse? .document (front ++ ' ' :: back) = some tree) :
    ∃ other, parse? .document (front ++ ' ' :: comment body back) = some other ∧
      tree.Corresponds other := by
  have follows := run_follows back (comment body back) rfl (skip_comment body back closed)
    (fuelFor (front ++ ' ' :: back)) .free (.rule .document) _ _ (.before front) passed
  obtain ⟨extra, enough⟩ : ∃ extra,
      fuelFor (front ++ ' ' :: comment body back) = fuelFor (front ++ ' ' :: back) + extra := by
    refine ⟨(body.length + 5) * nesting, ?_⟩
    simp only [fuelFor, comment, List.length_append, List.length_cons, ← Nat.add_mul]
    congr 1
    omega
  unfold parse? at found ⊢
  cases met : run (fuelFor (front ++ ' ' :: back)) .free (.rule .document)
      (front ++ ' ' :: back) with
  | failed | exhausted => simp [met] at found
  | matched rest trees =>
      rw [met] at follows found
      obtain ⟨place, others, other, _, alike⟩ := follows
      rw [enough, run_more_fuel _ _ _ _ _ (by simp [other]), other]
      cases alike with
      | nil => cases found
      | cons first _ =>
          cases found
          exact ⟨_, rfl, first⟩

theorem commented_document (dialect : Dialect) (front back body : List Char)
    (closed : ¬['*', '/'] <:+: body) (passed : passesOver front back = true) (draft : SchemaDraft)
    (read : Ddl.Reader.document { dialect, input := front ++ ' ' :: back } = .ok draft) :
    Ddl.Reader.document { dialect, input := front ++ ' ' :: comment body back } = .ok draft := by
  unfold Ddl.Reader.document at read ⊢
  obtain ⟨tree, parsed, statements⟩ := (bind_ok _ _ _).mp read
  obtain ⟨other, found, alike⟩ :=
    commented_tree front back body closed passed tree ((parse_ok _ _ _).mp parsed)
  refine (bind_ok _ _ _).mpr ⟨other, (parse_ok _ _ _).mpr found, ?_⟩
  have parts := Ddl.parts_below _ _ _ (Ddl.parts_all tree other alike .statement)
  exact Ddl.parts_fold_m _ _ _ parts _ _ (fun schema a b next _ same =>
    Ddl.Reader.statement_read { dialect, input := front ++ ' ' :: back }
      { dialect, input := front ++ ' ' :: comment body back } rfl a b same schema next)
    _ _ statements

theorem passed_comment_ignored (dialect : Dialect) (front back body : List Char) (schema : Schema)
    (parsed : dialect.parse (front ++ ' ' :: back) = .ok schema)
    (closed : ¬['*', '/'] <:+: body) (passed : passesOver front back = true) :
    dialect.parse (front ++ ' ' :: comment body back) = .ok schema := by
  obtain ⟨draft, read, rest⟩ := (bind_ok _ _ _).mp parsed
  exact (bind_ok _ _ _).mpr
    ⟨draft, commented_document dialect front back body closed passed draft read, rest⟩

theorem is_ok_value {ε α : Type} (x : Except ε α) (accepted : x.isOk = true) : ∃ a, x = .ok a := by
  cases x with
  | error => cases accepted
  | ok a => exact ⟨a, rfl⟩

-- The space after `DOUBLE` is first tried as that of `DOUBLE PRECISION`.
theorem comment_after_type_ignored : ∃ schema,
    Dialect.mysql.parse "CREATE TABLE t (a DOUBLE NOT NULL);".toList = .ok schema ∧
      Dialect.mysql.parse "CREATE TABLE t (a DOUBLE /* metres */ NOT NULL);".toList = .ok schema := by
  obtain ⟨schema, parsed⟩ :=
    is_ok_value (Dialect.mysql.parse "CREATE TABLE t (a DOUBLE NOT NULL);".toList) (by decide +kernel)
  exact ⟨schema, parsed, passed_comment_ignored .mysql "CREATE TABLE t (a DOUBLE".toList
    "NOT NULL);".toList " metres ".toList schema parsed (by decide) (by decide +kernel)⟩

/-! ### Comments in a kept text -/

def Dialect.ignoresComment (dialect : Dialect) (front back body : List Char) :
    Except SchemaError Bool := do
  let schema ← dialect.parse (front ++ ' ' :: back)
  let commented ← dialect.parse (front ++ ' ' :: comment body back)
  .ok (commented.equivalent schema)

theorem not_ignored (dialect : Dialect) (front back body : List Char)
    (readable : (dialect.parse (front ++ ' ' :: back)).isOk = true)
    (changed : (dialect.ignoresComment front back body).toOption ≠ some true) :
    ∃ schema, dialect.parse (front ++ ' ' :: back) = .ok schema ∧
      ¬∃ commented, dialect.parse (front ++ ' ' :: comment body back) = .ok commented ∧
        commented.equivalent schema = true := by
  obtain ⟨schema, parsed⟩ := is_ok_value _ readable
  refine ⟨schema, parsed, ?_⟩
  rintro ⟨commented, again, same⟩
  have alike : dialect.ignoresComment front back body = .ok true :=
    (bind_ok _ _ _).mpr ⟨schema, parsed, (bind_ok _ _ _).mpr ⟨commented, again, congrArg _ same⟩⟩
  rw [alike] at changed
  exact changed rfl

-- The default becomes `1 /* one */`. No literal, quoted identifier or comment starts before the space.
theorem comment_enters_default :
    ¬∀ (dialect : Dialect) (front back body : List Char) (schema : Schema),
      dialect.parse (front ++ ' ' :: back) = .ok schema →
      (front.all fun c => c ∉ ['\'', '"', '\x60', '-', '/']) = true → ¬['*', '/'] <:+: body →
      ∃ commented, dialect.parse (front ++ ' ' :: comment body back) = .ok commented ∧
        commented.equivalent schema = true := by
  intro always
  obtain ⟨schema, parsed, differs⟩ := not_ignored .postgres
    "CREATE TABLE t (a BIGINT DEFAULT 1".toList "NOT NULL);".toList " one ".toList
    (by decide +kernel) (by decide +kernel)
  exact differs (always .postgres _ _ _ schema parsed (by decide +kernel) (by decide))

end SchemaDrift
