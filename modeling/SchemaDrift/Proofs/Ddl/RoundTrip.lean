import SchemaDrift.Ddl.Document
import SchemaDrift.Dialect.Render
import SchemaDrift.Proofs.Result
/-!
Reading back what was printed. A default is printed as it is kept, without the parentheses that it
was written with, so that the text may end elsewhere for the reader.
-/

set_option autoImplicit false

namespace SchemaDrift

namespace Dialect

-- The printed schema is read back with the same canonical image, up to what `equivalent` ignores.
def ReadsBack (dialect : Dialect) (schema : Schema) : Prop :=
  ∃ printed again image copy, dialect.printSchema schema = .ok printed ∧
    dialect.parse printed.toList = .ok again ∧ dialect.canonicalize schema = .ok image ∧
    dialect.canonicalize again = .ok copy ∧ copy.equivalent image = true

def reread (dialect : Dialect) (text : List Char) : Except SchemaError Bool := do
  let schema ← dialect.parse text
  let printed ← dialect.printSchema schema
  let again ← dialect.parse printed.toList
  let image ← dialect.canonicalize schema
  let copy ← dialect.canonicalize again
  .ok (copy.equivalent image)

end Dialect

theorem reread_of_reads_back (dialect : Dialect) (text : List Char) (schema : Schema)
    (parsed : dialect.parse text = .ok schema) (back : dialect.ReadsBack schema) :
    dialect.reread text = .ok true := by
  obtain ⟨printed, again, image, copy, print, reread, first, second, same⟩ := back
  simp only [Dialect.reread, bind_ok, Except.ok.injEq]
  exact ⟨schema, parsed, printed, print, again, reread, image, first, copy, second, same⟩

theorem not_read_back (dialect : Dialect) (text : List Char) (readable : (dialect.parse text).isOk = true)
    (lost : (dialect.reread text).toOption ≠ some true) :
    ¬∀ text schema, dialect.parse text = .ok schema → dialect.ReadsBack schema := by
  intro always
  cases parsed : dialect.parse text with
  | error => simp [parsed, Except.isOk, Except.toBool] at readable
  | ok schema =>
      have back := reread_of_reads_back dialect text schema parsed (always text schema parsed)
      simp [back, Except.toOption] at lost

-- The default is printed `1 is null` and read as `1 is`, which allows `null`.
theorem bare_default_is_cut :
    ¬∀ text schema, Dialect.postgres.parse text = .ok schema → Dialect.postgres.ReadsBack schema :=
  not_read_back .postgres "CREATE TABLE t (a BOOLEAN DEFAULT (1 IS NULL));".toList
    (by decide +kernel) (by decide +kernel)

-- Quotes at both ends make a literal of any default, which is then printed without parentheses.
theorem false_literal_is_refused :
    ¬∀ dialect text schema, dialect ≠ .postgres → Dialect.parse dialect text = .ok schema →
      Dialect.ReadsBack dialect schema := by
  intro always
  exact not_read_back .mysql "CREATE TABLE t (a TEXT DEFAULT ('a' IS NULL OR 'b'));".toList
    (by decide +kernel) (by decide +kernel) fun text schema => always .mysql text schema (by decide)

end SchemaDrift
