import SchemaDrift.Plan.Emit
import SchemaDrift.Proofs.Result
/-!
Writing a plan to a stream. All of it is rendered before a question is asked, and the question is
answered before anything is written, so what is written is the whole of a plan that was approved.
-/

set_option autoImplicit false

namespace SchemaDrift

namespace Plan

def Renders (dialect : Dialect) (plan : Plan) : Prop :=
  ∀ op ∈ plan.operations, ∃ statements, dialect.render op = .ok statements

def Refused (dialect : Dialect) (plan : Plan) (error : SchemaError) : Prop :=
  ∃ front op back, plan.operations = front ++ op :: back ∧
    (∀ o ∈ front, ∃ statements, dialect.render o = .ok statements) ∧ dialect.render op = .error error

def Approval.Consents (approval : Approval) (plan : Plan) : Prop :=
  approval.automatic = true ∨ approval.answer plan = .given true

def Approval.Asks (dialect : Dialect) (approval : Approval) (plan : Plan) : Prop :=
  plan.operations ≠ [] ∧ plan.Renders dialect ∧ approval.automatic = false

def Approval.asked (approval : Approval) (plan : Plan) (session : Session) : Session :=
  if approval.automatic then session else { session with asked := session.asked ++ [plan] }

-- All the ways in which writing a plan to the stream can end.
inductive Emits (dialect : Dialect) (approval : Approval) (plan : Plan) (session : Session) :
    Except MigrationError Outcome → Session → Prop
  | nothing (empty : plan.operations = []) :
      Emits dialect approval plan session (.ok .noChanges) session
  | refused (error : SchemaError) (refusal : plan.Refused dialect error) :
      Emits dialect approval plan session (.error (.schema error)) session
  | unanswered (statements : List String) (error : MigrationError) (some : plan.operations ≠ [])
      (rendered : plan.render dialect = .ok statements) (asks : approval.automatic = false)
      (failed : approval.answer plan = .failed error) :
      Emits dialect approval plan session (.error error) (approval.asked plan session)
  | declined (statements : List String) (some : plan.operations ≠ [])
      (rendered : plan.render dialect = .ok statements) (asks : approval.automatic = false)
      (no : approval.answer plan = .given false) :
      Emits dialect approval plan session (.ok (.declined statements)) (approval.asked plan session)
  | applied (statements : List String) (some : plan.operations ≠ [])
      (rendered : plan.render dialect = .ok statements) (yes : approval.Consents plan) :
      Emits dialect approval plan session (.ok (.applied statements none))
        { approval.asked plan session with stream := session.stream ++ script statements }

end Plan

open Plan

/-! ### Rendering -/

section Rendering

variable (dialect : Dialect) (plan : Plan)

theorem render_error_iff (e : MigrationError) :
    plan.render dialect = .error e ↔ ∃ error, e = .schema error ∧ plan.Refused dialect error := by
  have all (error : SchemaError) :
      dialect.renderAll plan.operations = .error error ↔ plan.Refused dialect error := by
    rw [Dialect.renderAll, bind_error, map_m_error]
    constructor
    · rintro (refusal | ⟨_, _, never⟩)
      · exact refusal
      · cases never
    · exact .inl
  rw [Plan.render]
  cases found : dialect.renderAll plan.operations with
  | ok statements =>
      constructor
      · intro failed
        cases failed
      · rintro ⟨error, rfl, refusal⟩
        rw [(all error).mpr refusal] at found
        cases found
  | error error =>
      constructor
      · intro same
        cases same
        exact ⟨error, rfl, (all error).mp found⟩
      · rintro ⟨other, rfl, refusal⟩
        rw [(all other).mpr refusal] at found
        cases found
        rfl

theorem refused_not_rendered (error : SchemaError) (refusal : plan.Refused dialect error) :
    plan.operations ≠ [] ∧ ¬plan.Renders dialect := by
  obtain ⟨front, op, back, whole, _, fails⟩ := refusal
  refine ⟨by simp [whole], fun renders => ?_⟩
  obtain ⟨statements, rendered⟩ := renders op (by simp [whole])
  rw [fails] at rendered
  cases rendered

theorem render_ok_iff : (∃ statements, plan.render dialect = .ok statements) ↔ plan.Renders dialect := by
  constructor
  · rintro ⟨statements, rendered⟩ op member
    obtain ⟨parts, pairs, _⟩ := (bind_ok _ _ _).mp ((map_error_ok _ _ _).mp rendered)
    obtain ⟨part, _, own⟩ := partner_of_left _ _ _ ((map_m_ok _ _ _).mp pairs) op member
    exact ⟨part, own⟩
  · intro renders
    cases found : plan.render dialect with
    | ok statements => exact ⟨statements, rfl⟩
    | error e =>
        obtain ⟨error, _, refusal⟩ := (render_error_iff dialect plan e).mp found
        exact absurd renders (refused_not_rendered dialect plan error refusal).2

end Rendering

/-! ### One run -/

theorem write_stream (session : Session) (text : String) :
    session.write .stream text = .ok { session with stream := session.stream ++ text } :=
  rfl

theorem apply_emits (dialect : Dialect) (approval : Approval) (plan : Plan) (session : Session) :
    plan.Emits dialect approval session (plan.apply dialect approval .stream session).1
      (plan.apply dialect approval .stream session).2 := by
  unfold Plan.apply
  by_cases empty : plan.operations = []
  · rw [if_pos (by simp [Plan.isEmpty, empty])]
    exact .nothing empty
  · rw [if_neg (by simpa [Plan.isEmpty] using empty)]
    cases rendered : plan.render dialect with
    | error e =>
        obtain ⟨error, rfl, refusal⟩ := (render_error_iff dialect plan e).mp rendered
        exact .refused error refusal
    | ok statements =>
        cases automatic : approval.automatic with
        | true =>
            have applied : plan.Emits dialect approval session _ _ :=
              .applied statements empty rendered (.inl automatic)
            simpa [Approval.asked, automatic, write_stream, Sink.path?] using applied
        | false =>
            cases answered : approval.answer plan with
            | failed error =>
                have unanswered : plan.Emits dialect approval session _ _ :=
                  .unanswered statements error empty rendered automatic answered
                simpa [Approval.asked, automatic, answered] using unanswered
            | given yes =>
                cases yes with
                | false =>
                    have declined : plan.Emits dialect approval session _ _ :=
                      .declined statements empty rendered automatic answered
                    simpa [Approval.asked, automatic, answered] using declined
                | true =>
                    have applied : plan.Emits dialect approval session _ _ :=
                      .applied statements empty rendered (.inr answered)
                    simpa [Approval.asked, automatic, answered, write_stream, Sink.path?] using applied

section Emits

variable (dialect : Dialect) (approval : Approval) (plan : Plan) (session after : Session)
  (result : Except MigrationError Outcome) (emits : plan.Emits dialect approval session result after)

include emits

theorem emits_stream :
    (∀ statements target, result = .ok (.applied statements target) →
      plan.preview dialect = .ok (.planned statements) ∧
        after.stream = session.stream ++ script statements) ∧
    ((∀ statements target, result ≠ .ok (.applied statements target)) →
      after.stream = session.stream) := by
  have kept : (approval.asked plan session).stream = session.stream := by
    unfold Approval.asked
    split <;> rfl
  cases emits with
  | nothing | refused => simp
  | unanswered | declined => simp [kept]
  | applied statements some rendered yes =>
      have planned : plan.preview dialect = .ok (.planned statements) := by
        rw [Plan.preview, if_neg (by simpa [Plan.isEmpty] using some), rendered]
        rfl
      refine ⟨?_, fun never => absurd rfl (never statements none)⟩
      intro others target same
      cases same
      exact ⟨planned, rfl⟩

theorem emits_applied_iff : (∃ statements target, result = .ok (.applied statements target)) ↔
    plan.operations ≠ [] ∧ plan.Renders dialect ∧ approval.Consents plan := by
  have unsure (asks : approval.automatic = false) (reply : approval.answer plan ≠ .given true) :
      ¬approval.Consents plan := by simp [Approval.Consents, asks, reply]
  cases emits with
  | nothing empty => simp [empty]
  | refused error refusal => simp [(refused_not_rendered dialect plan error refusal).2]
  | unanswered statements error some rendered asks failed =>
      simp [unsure asks (by simp [failed])]
  | declined statements some rendered asks no => simp [unsure asks (by simp [no])]
  | applied statements some rendered yes =>
      simp [some, (render_ok_iff dialect plan).mp ⟨statements, rendered⟩, yes]

theorem emits_asked :
    (approval.Asks dialect plan → after.asked = session.asked ++ [plan]) ∧
      (¬approval.Asks dialect plan → after.asked = session.asked) := by
  have once (statements : List String) (some : plan.operations ≠ [])
      (rendered : plan.render dialect = .ok statements) :
      (approval.Asks dialect plan →
        (approval.asked plan session).asked = session.asked ++ [plan]) ∧
      (¬approval.Asks dialect plan → (approval.asked plan session).asked = session.asked) := by
    have renders := (render_ok_iff dialect plan).mp ⟨statements, rendered⟩
    cases automatic : approval.automatic <;>
      simp [Approval.Asks, Approval.asked, some, renders, automatic]
  cases emits with
  | nothing empty => simp [Approval.Asks, empty]
  | refused error refusal =>
      simp [Approval.Asks, (refused_not_rendered dialect plan error refusal).2]
  | unanswered statements _ some rendered => exact once statements some rendered
  | declined statements some rendered => exact once statements some rendered
  | applied statements some rendered => exact once statements some rendered

theorem emits_refused (error : SchemaError) (refusal : plan.Refused dialect error) :
    result = .error (.schema error) ∧ after = session := by
  have fails := (render_error_iff dialect plan _).mpr ⟨error, rfl, refusal⟩
  cases emits with
  | nothing empty => exact absurd empty (refused_not_rendered dialect plan error refusal).1
  | refused other found =>
      rw [(render_error_iff dialect plan _).mpr ⟨other, rfl, found⟩] at fails
      cases fails
      exact ⟨rfl, rfl⟩
  | unanswered _ _ _ rendered | declined _ _ rendered | applied _ _ rendered =>
      rw [rendered] at fails
      cases fails

end Emits

-- What is written is the whole script of a plan that was approved, and it is written only then.
theorem written_with_consent (dialect : Dialect) (approval : Approval) (plan : Plan)
    (session after : Session) (result : Except MigrationError Outcome)
    (run : plan.apply dialect approval .stream session = (result, after)) :
    (∀ statements target, result = .ok (.applied statements target) →
      plan.preview dialect = .ok (.planned statements) ∧
        after.stream = session.stream ++ script statements) ∧
    ((∀ statements target, result ≠ .ok (.applied statements target)) →
      after.stream = session.stream) ∧
    ((∃ statements target, result = .ok (.applied statements target)) ↔
      plan.operations ≠ [] ∧ plan.Renders dialect ∧ approval.Consents plan) ∧
    (approval.Asks dialect plan → after.asked = session.asked ++ [plan]) ∧
    (¬approval.Asks dialect plan → after.asked = session.asked) ∧
    ∀ error, plan.Refused dialect error → result = .error (.schema error) ∧ after = session := by
  have emits := apply_emits dialect approval plan session
  rw [run] at emits
  obtain ⟨written, kept⟩ := emits_stream dialect approval plan session after result emits
  obtain ⟨asked, unasked⟩ := emits_asked dialect approval plan session after result emits
  exact ⟨written, kept, emits_applied_iff dialect approval plan session after result emits, asked,
    unasked, emits_refused dialect approval plan session after result emits⟩

-- A plan that is approved, and one of which Spanner can write the first operation only: it has no
-- times of day.
namespace Guestbook

def drops : Plan := { operations := [.dropTable "visit", .dropTable "guest"] }

def timed : Plan where
  operations :=
    [.dropTable "visit", .addColumn "guest" { name := "at", type := { base := .time } }]

def approval : Plan.Approval := { answer := fun _ => true }

def statements : List String := ["DROP TABLE `visit`", "DROP TABLE `guest`"]

def written : Session := { asked := [drops], stream := "DROP TABLE `visit`;\n\nDROP TABLE `guest`;\n" }

end Guestbook

theorem guestbook_is_written_whole :
    Guestbook.drops.apply .mysql Guestbook.approval .stream {}
      = (.ok (.applied Guestbook.statements none), Guestbook.written) ∧
    Guestbook.drops.preview .mysql = .ok (.planned Guestbook.statements) ∧
    Guestbook.written.stream = "" ++ script Guestbook.statements ∧
    Guestbook.timed.Refused .spanner (.unsupported .spanner "TIME type") ∧
    Guestbook.timed.apply .spanner Guestbook.approval .stream {}
      = (.error (.schema (.unsupported .spanner "TIME type")), {}) := by
  have run : Guestbook.drops.apply .mysql Guestbook.approval .stream {}
      = (.ok (.applied Guestbook.statements none), Guestbook.written) := rfl
  have refusal : Guestbook.timed.Refused .spanner (.unsupported .spanner "TIME type") :=
    ⟨[.dropTable "visit"], _, [], rfl, by simp [Dialect.render], rfl⟩
  obtain ⟨whole, _⟩ := written_with_consent .mysql Guestbook.approval Guestbook.drops {} _ _ run
  obtain ⟨planned, streamed⟩ := whole Guestbook.statements none rfl
  obtain ⟨_, _, _, _, _, stops⟩ :=
    written_with_consent .spanner Guestbook.approval Guestbook.timed {} _ _ rfl
  obtain ⟨result, untouched⟩ := stops (.unsupported .spanner "TIME type") refusal
  exact ⟨run, planned, streamed, refusal, Prod.ext result untouched⟩

end SchemaDrift
