import SchemaDrift.Dialect.Render
import SchemaDrift.Plan.Basic
import SchemaDrift.Plan.Error
import SchemaDrift.Workspace.Basic
/-!
Carrying out a plan: its statements are shown, and written once they are approved.
-/

set_option autoImplicit false

namespace SchemaDrift

inductive Sink where
  | stream
  | file (path : String)
deriving DecidableEq, Repr

inductive Outcome where
  | noChanges
  | planned (statements : List String)
  -- The target is a file, or the stream if there is none.
  | applied (statements : List String) (target : Option String)
  | declined (statements : List String)
deriving DecidableEq, Repr

namespace Outcome

def name : Outcome → String
  | noChanges => "NoChanges"
  | planned _ => "Planned"
  | applied .. => "Applied"
  | declined _ => "Declined"

def statements? : Outcome → Option (List String)
  | noChanges => none
  | planned statements | applied statements _ | declined statements => some statements

def target? : Outcome → Option String
  | applied _ target => target
  | _ => none

end Outcome

structure Session where
  asked : List Plan := []
  stream : String := ""
  workspace : Workspace := {}
deriving DecidableEq, Repr

namespace Session

def write (session : Session) (sink : Sink) (text : String) : Except MigrationError Session :=
  match sink with
  | .stream => .ok { session with stream := session.stream ++ text }
  | .file path => match session.workspace.write? path text with
    | some workspace => .ok { session with workspace }
    | none => .error (.unwritable path)

end Session

def Sink.path? : Sink → Option String
  | stream => none
  | file path => some path

namespace Plan

def render (dialect : Dialect) (plan : Plan) : Except MigrationError (List String) :=
  (dialect.renderAll plan.operations).mapError .schema

def preview (dialect : Dialect) (plan : Plan) : Except MigrationError Outcome := do
  if plan.isEmpty then .ok .noChanges else .ok (.planned (← plan.render dialect))

inductive Answer where
  | given (approved : Bool)
  | failed (error : MigrationError)
deriving DecidableEq, Repr

instance : Coe Bool Answer := ⟨.given⟩

structure Approval where
  automatic : Bool := false
  answer : Plan → Answer

/-- Writes the statements of the plan to the sink once they are approved. All of them are rendered
before anything is asked or written. -/
def apply (dialect : Dialect) (approval : Approval) (sink : Sink) (plan : Plan)
    (session : Session) : Except MigrationError Outcome × Session :=
  if plan.isEmpty then (.ok .noChanges, session)
  else match plan.render dialect with
    | .error error => (.error error, session)
    | .ok statements =>
      let asking := if approval.automatic then session
        else { session with asked := session.asked ++ [plan] }
      match if approval.automatic then Answer.given true else approval.answer plan with
      | .failed error => (.error error, asking)
      | .given false => (.ok (.declined statements), asking)
      | .given true => match asking.write sink (script statements) with
        | .ok written => (.ok (.applied statements sink.path?), written)
        | .error error => (.error error, asking)

end Plan

end SchemaDrift
