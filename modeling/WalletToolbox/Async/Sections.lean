import WalletToolbox.Async.Pool
import WalletToolbox.Effects.Fallible

/-! Methods of an object between their awaits. What a method does to the fields of the
object from one await to the next is one operation, which nothing interrupts; what it
awaits is an operation of the world outside. -/

namespace Async
open Effects

inductive SectionOp (ε φ : Type) (J : Interface) where
  | enter (body : Fallible ε φ Unit)
  | outside (op : J.Op)

variable {J : Interface} {ε φ ω α β ι : Type}

@[reducible] def SectionOp.Reply : SectionOp ε φ J → Type
  | .enter _ => Except ε φ
  | .outside op => J.Reply op

abbrev sections (ε φ : Type) (J : Interface) : Interface := ⟨SectionOp ε φ J, SectionOp.Reply⟩

def Machine.withFields (world : Machine J ω) : Machine (sections ε φ J) (φ × ω)
  | .enter body, (fields, outer) => ((body fields).1.map fun _ => fields, ((body fields).2, outer))
  | .outside op, (fields, outer) => ((world op outer).1, (fields, (world op outer).2))

namespace Program

def enter (body : Fallible ε φ Unit) : Program (sections ε φ J) ε φ :=
  .await (.enter body) ofExcept

def outside (op : J.Op) : Program (sections ε φ J) ε (J.Reply op) := .await (.outside op) .done

section
variable {world : Machine J ω} {fields : φ} {outer : ω}

theorem run_enter (body) :
    (enter body : Program (sections ε φ J) ε φ).run world.withFields (fields, outer) =
      ((body fields).1.map fun _ => fields, ((body fields).2, outer)) := by
  rw [enter, run_await, run_ofExcept]
  rfl

theorem Resolves.enter
    (holds : ∀ after, body fields = (.ok (), after) → post fields (after, outer)) :
    (enter body : Program (sections ε φ J) ε φ).Resolves world.withFields (fields, outer) post := by
  intro found last ran
  rw [run_enter] at ran
  obtain ⟨replied, rfl⟩ := Prod.mk.inj ran
  cases ended : body fields with
  | mk outcome after =>
    rw [ended] at replied
    cases outcome with
    | ok _ =>
      cases replied
      exact holds after ended
    | error _ => cases replied

end

end Program
end Async
