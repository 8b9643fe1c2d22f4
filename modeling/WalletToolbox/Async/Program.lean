import Mathlib.Logic.Function.Basic

/-! Asynchronous programs. A program computes until it awaits an operation, and
only there can anything else happen. The operations and their replies are a
parameter, so one program can be run alone, interleaved with others, or
translated to the operations of a lower layer. -/

namespace Async

/-- The operations a program may await, with the reply each of them resolves to. -/
structure Interface where
  Op : Type
  Reply : Op → Type

inductive Program (I : Interface) (ε α : Type) : Type where
  | done (value : α)
  | fail (error : ε)
  | await (op : I.Op) (next : I.Reply op → Program I ε α)

variable {I J : Interface} {ε ε' α β γ σ : Type}

namespace Program

protected def bind (program : Program I ε α) (next : α → Program I ε β) : Program I ε β :=
  match program with
  | .done value => next value
  | .fail error => .fail error
  | .await op rest => .await op (fun reply => (rest reply).bind next)

/-- A rejected promise reaches the nearest handler. -/
protected def handle (program : Program I ε α) (handler : ε → Program I ε' α) : Program I ε' α :=
  match program with
  | .done value => .done value
  | .fail error => handler error
  | .await op rest => .await op (fun reply => (rest reply).handle handler)

instance : Monad (Program I ε) where
  pure := .done
  bind := Program.bind

instance : MonadExceptOf ε (Program I ε) where
  throw := .fail
  tryCatch := Program.handle

/-- Await one operation. -/
def call (op : I.Op) : Program I ε (I.Reply op) := .await op .done

def ofExcept : Except ε α → Program I ε α
  | .ok value => .done value
  | .error error => .fail error

def firstSome (first second : Program I ε (Option α)) : Program I ε (Option α) :=
  first >>= fun
    | some value => .done (some value)
    | none => second

/-- How the program has settled, if it has. -/
def outcome : Program I ε α → Option (Except ε α)
  | .done value => some (.ok value)
  | .fail error => some (.error error)
  | .await _ _ => none

theorem outcome_ok {program : Program I ε α} : program.outcome = some (.ok value) ↔ program = .done value := by
  cases program <;> simp [outcome]

def settle (program : Program I ε α) : Program I ε' (Except ε α) :=
  match program with
  | .done value => .done (.ok value)
  | .fail error => .done (.error error)
  | .await op rest => .await op (fun reply => (rest reply).settle)

def ensuring (program : Program I ε α) (cleanup : Program I ε Unit) : Program I ε α :=
  program.settle.bind fun outcome => cleanup.bind fun _ => ofExcept outcome

@[simp] theorem pure_eq (value : α) : (pure value : Program I ε α) = .done value := rfl
@[simp] theorem throw_eq (error : ε) : (throw error : Program I ε α) = .fail error := rfl
@[simp] theorem done_bind (value : α) (next : α → Program I ε β) : (.done value >>= next) = next value := rfl
@[simp] theorem fail_bind (error : ε) (next : α → Program I ε β) : ((.fail error : Program I ε α) >>= next) = .fail error := rfl
@[simp] theorem await_bind (op : I.Op) (rest : I.Reply op → Program I ε α) (next : α → Program I ε β) :
    (.await op rest >>= next) = .await op (fun reply => rest reply >>= next) := rfl

@[simp] theorem ofExcept_ok_bind (value : α) (next : α → Program I ε β) : (ofExcept (.ok value) >>= next : Program I ε β) = next value := rfl
@[simp] theorem ofExcept_error_bind (error : ε) (next : α → Program I ε β) :
    (ofExcept (.error error : Except ε α) >>= next : Program I ε β) = .fail error := rfl

theorem await_congr {op next other} (same : ∀ reply, next reply = other reply) :
    (.await op next : Program I ε α) = .await op other := congrArg (Program.await op) (funext same)

instance : LawfulMonad (Program I ε) := LawfulMonad.mk' _
  (fun program => by
    induction program with
    | done _ | fail _ => rfl
    | await op rest ih => exact congrArg (Program.await op) (funext ih))
  (fun _ _ => rfl)
  (fun program _ _ => by
    induction program with
    | done _ | fail _ => rfl
    | await op rest ih => exact congrArg (Program.await op) (funext ih))

/-- Every operation of `program` satisfies `allowed`, whatever replies it gets. -/
def Uses (allowed : I.Op → Prop) : Program I ε α → Prop
  | .done _ | .fail _ => True
  | .await op next => allowed op ∧ ∀ reply, (next reply).Uses allowed

theorem Uses.bind {allowed : I.Op → Prop} {program : Program I ε α} {next : α → Program I ε β}
    (first : program.Uses allowed) (rest : ∀ value, (next value).Uses allowed) :
    (program >>= next).Uses allowed := by
  induction program with
  | done value => exact rest value
  | fail error => trivial
  | await op more ih => exact ⟨first.1, fun reply => ih reply (first.2 reply)⟩

theorem Uses.handle {program : Program I ε α} {handler : ε → Program I ε' α}
    (first : program.Uses allowed) (rest : ∀ error, (handler error).Uses allowed) : (program.handle handler).Uses allowed := by
  induction program with
  | done value => trivial
  | fail error => exact rest error
  | await op more ih => exact ⟨first.1, fun reply => ih reply (first.2 reply)⟩

theorem Uses.firstSome
    (left : first.Uses allowed) (right : second.Uses allowed) : (firstSome first second).Uses allowed :=
  left.bind fun
    | some _ => trivial
    | none => right

theorem Uses.mono {allowed wider : I.Op → Prop} {program : Program I ε α} (uses : program.Uses allowed)
    (implies : ∀ op, allowed op → wider op) : program.Uses wider := by
  induction program with
  | done _ | fail _ => trivial
  | await op next ih => exact ⟨implies op uses.1, fun reply => ih reply (uses.2 reply)⟩

theorem Uses.ofExcept (result) : (ofExcept result : Program I ε α).Uses allowed := by
  cases result <;> trivial

theorem Uses.ofExcept_bind {next : α → Program I ε β}
    (rest : ∀ value, result = .ok value → (next value).Uses allowed) : (Program.ofExcept result >>= next).Uses allowed := by
  cases result with
  | ok value => exact rest value rfl
  | error _ => trivial

theorem Uses.mapM {each : α → Program I ε β} (uses : ∀ value, (each value).Uses allowed)
    (values : List α) : (values.mapM each).Uses allowed := by
  induction values with
  | nil => trivial
  | cons first rest ih =>
    rw [List.mapM_cons]
    exact (uses first).bind fun _ => ih.bind fun _ => trivial

/-- Replace every operation by a program over a lower interface. A lower program
that fails hands its error to the caller as the reply of the operation. -/
def translate {R : I.Op → Type} (implement : (op : I.Op) → Program J ε' (R op))
    (reply : (op : I.Op) → Except ε' (R op) → I.Reply op) (program : Program I ε α) : Program J ε α :=
  match program with
  | .done value => .done value
  | .fail error => .fail error
  | .await op next =>
    (implement op).settle >>= fun outcome => (next (reply op outcome)).translate implement reply

theorem settle_ofExcept (program) : (program.settle >>= ofExcept : Program I ε α) = program := by
  induction program with
  | done _ | fail _ => rfl
  | await op rest ih => exact await_congr ih

theorem settle_handle (program : Program I ε α) (next : Except ε α → Program I ε β) (handler : ε → Program I ε' β) :
    (program.settle >>= next).handle handler = program.settle >>= fun outcome => (next outcome).handle handler := by
  induction program with
  | done _ | fail _ => rfl
  | await op rest ih => exact await_congr ih

theorem settle_bind (program : Program I ε α) (next : Except ε α → Program I ε β) :
    ((program.settle >>= next).settle : Program I ε' _) = program.settle >>= fun outcome => (next outcome).settle := by
  induction program with
  | done _ | fail _ => rfl
  | await op rest ih => exact await_congr ih

theorem Uses.settle {program : Program I ε α} (uses : program.Uses allowed) :
    (program.settle : Program I ε' _).Uses allowed := by
  induction program with
  | done _ | fail _ => trivial
  | await op next ih => exact ⟨uses.1, fun reply => ih reply (uses.2 reply)⟩

theorem Uses.ite [Decidable condition] {first second : Program I ε α}
    (left : first.Uses allowed) (right : second.Uses allowed) : (if condition then first else second).Uses allowed := by
  split
  · exact left
  · exact right

theorem Uses.forM {each : α → Program I ε Unit} (uses : ∀ value, (each value).Uses allowed)
    (values : List α) : (values.forM each).Uses allowed := by
  induction values with
  | nil => trivial
  | cons first rest ih => exact (uses first).bind fun _ => ih

theorem Uses.ensuring {program : Program I ε α} {cleanup : Program I ε Unit}
    (uses : program.Uses allowed) (cleans : cleanup.Uses allowed) : (program.ensuring cleanup).Uses allowed :=
  uses.settle.bind fun outcome => cleans.bind fun _ => .ofExcept outcome

theorem Uses.translate {R : I.Op → Type} {implement : (op : I.Op) → Program J ε' (R op)}
    {reply : (op : I.Op) → Except ε' (R op) → I.Reply op} {allowed : J.Op → Prop} (uses : ∀ op, (implement op).Uses allowed)
    (program : Program I ε α) : (program.translate implement reply).Uses allowed := by
  induction program with
  | done _ | fail _ => trivial
  | await op next ih => exact (uses op).settle.bind fun outcome => ih _

section
variable {R : I.Op → Type} (implement : (op : I.Op) → Program J ε (R op)) (reply : (op : I.Op) → Except ε (R op) → I.Reply op)

theorem translate_bind (program) (next : α → Program I ε β) :
    (program >>= next).translate implement reply = program.translate implement reply >>= fun value => (next value).translate implement reply := by
  induction program with
  | done _ | fail _ => rfl
  | await op rest ih =>
    rw [await_bind, translate, translate, bind_assoc]
    exact congrArg _ (funext fun outcome => ih (reply op outcome))

theorem translate_handle (program : Program I ε α) (handler : ε → Program I ε α) :
    (program.handle handler).translate implement reply =
      (program.translate implement reply).handle fun error => (handler error).translate implement reply := by
  induction program with
  | done _ | fail _ => rfl
  | await op rest ih =>
    rw [Program.handle, translate, translate, settle_handle]
    exact congrArg _ (funext fun outcome => ih (reply op outcome))

theorem translate_settle (program : Program I ε α) :
    (program.settle : Program I ε _).translate implement reply = (program.translate implement reply).settle := by
  induction program with
  | done _ | fail _ => rfl
  | await op rest ih =>
    rw [settle, translate, translate, settle_bind]
    exact congrArg _ (funext fun outcome => ih (reply op outcome))

end

end Program

/-- One atomic step of the shared store for each operation. -/
abbrev Machine (I : Interface) (σ : Type) := (op : I.Op) → σ → I.Reply op × σ

namespace Program
variable (exec : Machine I σ)

/-- Run alone: no other caller touches the store. -/
def run : Program I ε α → σ → Except ε α × σ
  | .done value, store => (.ok value, store)
  | .fail error, store => (.error error, store)
  | .await op next, store => (next (exec op store).1).run (exec op store).2

@[simp] theorem run_done (value : α) (store : σ) : (.done value : Program I ε α).run exec store = (.ok value, store) := rfl
@[simp] theorem run_fail (error : ε) (store : σ) : (.fail error : Program I ε α).run exec store = (.error error, store) := rfl
@[simp] theorem run_await (op : I.Op) (next : I.Reply op → Program I ε α) (store : σ) :
    (.await op next : Program I ε α).run exec store = (next (exec op store).1).run exec (exec op store).2 := rfl
@[simp] theorem run_call (op : I.Op) (store : σ) :
    (call op : Program I ε _).run exec store = (.ok (exec op store).1, (exec op store).2) := rfl

theorem run_bind (program) (next : α → Program I ε β) (store : σ) :
    (program >>= next).run exec store =
      match program.run exec store with
      | (.ok value, after) => (next value).run exec after
      | (.error error, after) => (.error error, after) := by
  induction program generalizing store with
  | done value => rfl
  | fail error => rfl
  | await op rest ih => exact ih _ _

theorem run_bind_of_ok {exec : Machine I σ} {program : Program I ε α} {next : α → Program I ε β} {store after : σ} {value : α}
    (ran : program.run exec store = (.ok value, after)) : (program >>= next).run exec store = (next value).run exec after := by
  rw [run_bind, ran]

theorem run_bind_of_error {exec : Machine I σ} {program : Program I ε α} {next : α → Program I ε β} {store after : σ} {error : ε}
    (ran : program.run exec store = (.error error, after)) : (program >>= next).run exec store = (.error error, after) := by
  rw [run_bind, ran]

theorem run_ofExcept (result) (store : σ) :
    (ofExcept result : Program I ε α).run exec store = (result, store) := by
  cases result <;> rfl

theorem run_handle (program : Program I ε α) (handler : ε → Program I ε' α) (store : σ) :
    (program.handle handler).run exec store =
      match program.run exec store with
      | (.ok value, after) => (.ok value, after)
      | (.error error, after) => (handler error).run exec after := by
  induction program generalizing store with
  | done value => rfl
  | fail error => rfl
  | await op rest ih => exact ih _ _

theorem run_settle (program : Program I ε α) (store : σ) :
    (program.settle : Program I ε' _).run exec store =
      (.ok (program.run exec store).1, (program.run exec store).2) := by
  induction program generalizing store with
  | done value => rfl
  | fail error => rfl
  | await op rest ih => exact ih _ _

theorem run_preserves {inv : σ → Prop} {program : Program I ε α}
    (step : ∀ op store, allowed op → inv store → inv (exec op store).2)
    (uses : program.Uses allowed) {store : σ} (holds : inv store) : inv (program.run exec store).2 := by
  induction program generalizing store with
  | done _ | fail _ => exact holds
  | await op next ih => exact ih _ (uses.2 _) (step op store uses.1 holds)

theorem run_unchanged {program : Program I ε α} (uses : program.Uses allowed)
    (unchanged : ∀ op store, allowed op → (exec op store).2 = store) (store : σ) : (program.run exec store).2 = store := by
  have keeps : ∀ op before, allowed op → before = store → (exec op before).2 = store := by
    intro op before may same
    rw [unchanged op before may, same]
  exact run_preserves exec keeps uses rfl

def Ends (program : Program I ε α) (store : σ) (post : Except ε α → σ → Prop) : Prop :=
  post (program.run exec store).1 (program.run exec store).2

section
variable {exec}

theorem Ends.bind {program : Program I ε α} {next : α → Program I ε β} {store post}
    (first : program.Ends exec store fun outcome after => match outcome with
      | .ok value => (next value).Ends exec after post
      | .error error => post (.error error) after) : (program >>= next).Ends exec store post := by
  have step : post ((program >>= next).run exec store).1 ((program >>= next).run exec store).2 := by
    rw [run_bind]
    unfold Ends at first
    rcases ended : program.run exec store with ⟨outcome, after⟩
    rw [ended] at first
    cases outcome with
    | ok value => exact first
    | error error => exact first
  exact step

theorem Ends.mono {program : Program I ε α} {store post weaker}
    (ends : program.Ends exec store post) (implies : ∀ outcome after, post outcome after → weaker outcome after) :
    program.Ends exec store weaker := implies _ _ ends

theorem Ends.returns {inv : σ → Prop} {program : Program I ε α} (ends : program.Ends exec store fun _ after => inv after)
    (result : α → β) : (program >>= fun value => .done (result value)).Ends exec store fun _ after => inv after := by
  refine Ends.bind (ends.mono fun outcome after holds => ?_)
  cases outcome with
  | ok _ => exact holds
  | error _ => exact holds

theorem Ends.after {next : α → Program I ε β} {store : σ}
    {post : Except ε β → σ → Prop} (uses : program.Uses allowed)
    (unchanged : ∀ op store, allowed op → (exec op store).2 = store)
    (rest : ∀ value, (program.run exec store).1 = .ok value → (next value).Ends exec store post)
    (failed : ∀ error, post (.error error) store) : (program >>= next).Ends exec store post := by
  apply Ends.bind
  unfold Ends
  rw [run_unchanged exec uses unchanged store]
  cases outcome : (program.run exec store).1 with
  | ok value => exact rest value outcome
  | error error => exact failed error

end

def Resolves (program : Program I ε α) (store : σ) (post : α → σ → Prop) : Prop :=
  ∀ value after, program.run exec store = (.ok value, after) → post value after

section
variable {exec} {store : σ} {post : α → σ → Prop}

theorem Resolves.done (holds : post value store) : (.done value : Program I ε α).Resolves exec store post := by
  intro result after ran
  obtain ⟨same, rfl⟩ := Prod.mk.inj ran
  exact Except.ok.inj same ▸ holds

theorem Resolves.fail (error : ε) : (.fail error : Program I ε α).Resolves exec store post := by
  intro result after ran
  have stuck := (Prod.mk.inj ran).1
  cases stuck

theorem Resolves.ofExcept {result : Except ε α} (holds : ∀ value, result = .ok value → post value store) :
    (ofExcept result).Resolves exec store post := by
  cases result with
  | ok value => exact .done (holds value rfl)
  | error error => exact .fail error

theorem Resolves.await {op next}
    (rest : (next (exec op store).1).Resolves exec (exec op store).2 post) : (.await op next : Program I ε α).Resolves exec store post :=
  rest

theorem Resolves.bind {next : α → Program I ε β} {program last}
    (first : program.Resolves exec store fun value after => (next value).Resolves exec after last) :
    (program >>= next).Resolves exec store last := by
  intro result after ran
  rw [run_bind] at ran
  cases ended : program.run exec store with
  | mk outcome middle =>
    rw [ended] at ran
    cases outcome with
    | ok value => exact first value middle ended result after ran
    | error error =>
      have stuck := (Prod.mk.inj ran).1
      cases stuck

theorem Resolves.mono {weaker : α → σ → Prop} {program : Program I ε α} (resolves : program.Resolves exec store post)
    (implies : ∀ value after, post value after → weaker value after) : program.Resolves exec store weaker :=
  fun value after ran => implies value after (resolves value after ran)

theorem Resolves.also {inv : σ → Prop} {program : Program I ε α} (resolves : program.Resolves exec store post) (ends : inv (program.run exec store).2) :
    program.Resolves exec store fun value after => post value after ∧ inv after := by
  intro value after ran
  rw [ran] at ends
  exact ⟨resolves value after ran, ends⟩

theorem Resolves.handle {program : Program I ε α} {handler : ε → Program I ε' α} (resolves : program.Resolves exec store post)
    (rest : ∀ error after, program.run exec store = (.error error, after) → (handler error).Resolves exec after post) :
    (program.handle handler).Resolves exec store post := by
  intro result after ran
  rw [run_handle] at ran
  cases ended : program.run exec store with
  | mk outcome middle =>
    rw [ended] at ran
    cases outcome with
    | ok value =>
      obtain ⟨same, rfl⟩ := Prod.mk.inj ran
      exact resolves result middle (by rw [ended, Except.ok.inj same])
    | error error => exact rest error middle ended result after ran

theorem Resolves.rethrow {program : Program I ε α} (resolves : program.Resolves exec store post) (wrap : ε → ε') :
    (program.handle fun error => .fail (wrap error) : Program I ε' α).Resolves exec store post :=
  resolves.handle fun error _ _ => .fail (wrap error)

theorem Resolves.ensuring {program : Program I ε α} {cleanup}
    (resolves : program.Resolves exec store fun value after => cleanup.Resolves exec after fun _ => post value) :
    (program.ensuring cleanup).Resolves exec store post := by
  apply Resolves.bind
  intro outcome middle settled
  rw [run_settle] at settled
  obtain ⟨same, rfl⟩ := Prod.mk.inj settled
  apply Resolves.bind
  intro _ after cleaned
  apply Resolves.ofExcept
  intro value ok
  exact resolves value _ (by rw [← ok, ← Except.ok.inj same]) _ after cleaned

end

theorem run_translate {R : J.Op → Type} (implement : (op : J.Op) → Program I ε' (R op))
    (reply : (op : J.Op) → Except ε' (R op) → J.Reply op) (program : Program J ε α) (store : σ) :
    (program.translate implement reply).run exec store =
      program.run (fun op store =>
        (reply op ((implement op).run exec store).1, ((implement op).run exec store).2)) store := by
  induction program generalizing store with
  | done value => rfl
  | fail error => rfl
  | await op next ih =>
    rw [translate, run_bind, run_settle]
    exact ih _ _

end Program
end Async
