import WalletToolbox.Async.Program

/-! Programs interleaved over one store. A pool holds any number of tasks; a step
lets one of them complete the operation it awaits. A task keeps the operations it
has completed, so a schedule can be restricted by where its tasks are. -/

namespace Async

structure Event (I : Interface) where
  op : I.Op
  reply : I.Reply op

structure Task (I : Interface) (ε α : Type) where
  past : List (Event I)
  program : Program I ε α

structure Pool (I : Interface) (ε α σ ι : Type) where
  store : σ
  task : ι → Task I ε α

variable {I : Interface} {ε α β σ ι : Type}

namespace Pool
variable [DecidableEq ι] (exec : Machine I σ)

/-- Every caller at its first await. -/
def start (store : σ) (programs : ι → Program I ε α) : Pool I ε α σ ι :=
  ⟨store, fun caller => ⟨[], programs caller⟩⟩

def advance (caller : ι) (pool : Pool I ε α σ ι) : Option (Pool I ε α σ ι) :=
  match (pool.task caller).program with
  | .done _ | .fail _ => none
  | .await op next =>
    some {
      store := (exec op pool.store).2
      task := Function.update pool.task caller
        ⟨(pool.task caller).past ++ [⟨op, (exec op pool.store).1⟩], next (exec op pool.store).1⟩ }

def followWhile (check : Pool I ε α σ ι → ι → Bool) (schedule : List ι) (pool : Pool I ε α σ ι) : Option (Pool I ε α σ ι) :=
  match schedule with
  | [] => some pool
  | caller :: rest => if check pool caller then (pool.advance exec caller).bind (followWhile check rest) else none

def follow (schedule : List ι) (pool : Pool I ε α σ ι) : Option (Pool I ε α σ ι) :=
  followWhile exec (fun _ _ => true) schedule pool

inductive Reaches (allowed : Pool I ε α σ ι → ι → Prop) (initial : Pool I ε α σ ι) : Pool I ε α σ ι → Prop
  | start : Reaches allowed initial initial
  | step {pool after : Pool I ε α σ ι} {caller : ι} (reached : Reaches allowed initial pool)
      (permitted : allowed pool caller) (moves : pool.advance exec caller = some after) :
      Reaches allowed initial after

/-- No restriction on the schedule. -/
def anyStep (_ : Pool I ε α σ ι) (_ : ι) : Prop := True

variable {exec}

theorem advance_cases {pool after : Pool I ε α σ ι} {caller} (moves : pool.advance exec caller = some after) :
    ∃ op next, (pool.task caller).program = .await op next ∧
      after.store = (exec op pool.store).2 ∧
      after.task = Function.update pool.task caller
        ⟨(pool.task caller).past ++ [⟨op, (exec op pool.store).1⟩], next (exec op pool.store).1⟩ := by
  unfold advance at moves
  split at moves
  · cases moves
  · cases moves
  next op next awaiting =>
    cases moves
    exact ⟨op, next, awaiting, rfl, rfl⟩

theorem Reaches.restrict {allowed stronger : Pool I ε α σ ι → ι → Prop}
    (reached : Reaches exec allowed initial pool)
    (implies : ∀ pool caller, Reaches exec allowed initial pool → allowed pool caller → stronger pool caller) :
    Reaches exec stronger initial pool := by
  induction reached with
  | start => exact .start
  | step earlier permitted moves ih => exact .step ih (implies _ _ earlier permitted) moves

theorem Reaches.trans {allowed : Pool I ε α σ ι → ι → Prop} {initial middle pool}
    (first : Reaches exec allowed initial middle) (rest : Reaches exec allowed middle pool) :
    Reaches exec allowed initial pool := by
  induction rest with
  | start => exact first
  | step _ permitted moves ih => exact .step ih permitted moves

theorem reaches_followWhile {allowed : Pool I ε α σ ι → ι → Prop} (sound : ∀ pool caller, check pool caller = true → allowed pool caller)
    (followed : initial.followWhile exec check schedule = some pool) : Reaches exec allowed initial pool := by
  induction schedule generalizing initial with
  | nil => cases followed; exact .start
  | cons caller rest ih =>
    rw [followWhile] at followed
    split at followed
    · next passes =>
      obtain ⟨middle, moves, remaining⟩ := Option.bind_eq_some_iff.mp followed
      exact (Reaches.step .start (sound _ _ passes) moves).trans (ih remaining)
    · cases followed

theorem reaches_follow {schedule : List ι}
    (followed : initial.follow exec schedule = some pool) : Reaches exec anyStep initial pool :=
  reaches_followWhile (fun _ _ _ => trivial) followed

theorem Reaches.invariant {allowed : Pool I ε α σ ι → ι → Prop} {initial : Pool I ε α σ ι}
    {inv : Pool I ε α σ ι → Prop} (first : inv initial)
    (preserved : ∀ pool caller after, Reaches exec allowed initial pool → inv pool → allowed pool caller →
      pool.advance exec caller = some after → inv after)
    {pool : Pool I ε α σ ι} (reached : Reaches exec allowed initial pool) : inv pool := by
  induction reached with
  | start => exact first
  | step reached permitted moves ih => exact preserved _ _ _ reached ih permitted moves

end Pool

namespace Program
variable (exec : Machine I σ)

def Keeps (inv : σ → Prop) (post : Except ε α → Prop) : Program I ε α → Prop
  | .done value => post (.ok value)
  | .fail error => post (.error error)
  | .await op next => ∀ store, inv store →
      inv (exec op store).2 ∧ (next (exec op store).1).Keeps inv post

def Always (inv : σ → Prop) (good : List (Event I) → Program I ε α → Prop) :
    List (Event I) → Program I ε α → Prop
  | past, .done value => good past (.done value)
  | past, .fail error => good past (.fail error)
  | past, .await op next => good past (.await op next) ∧ ∀ store, inv store →
      (next (exec op store).1).Always inv good (past ++ [⟨op, (exec op store).1⟩])

/-- `good` holds of every outcome `program` settles with, whatever replies it gets,
together with all the operations it has completed by then. -/
def Settles (good : List (Event I) → Except ε α → Prop) : List (Event I) → Program I ε α → Prop
  | past, .done value => good past (.ok value)
  | past, .fail error => good past (.error error)
  | past, .await op next => ∀ reply, (next reply).Settles good (past ++ [⟨op, reply⟩])

section
variable {good : List (Event I) → Except ε α → Prop} {past : List (Event I)}

theorem Settles.mono {program : Program I ε α}
    (settles : program.Settles good past)
    (implies : ∀ more outcome, past <+: more → good more outcome → weaker more outcome) : program.Settles weaker past := by
  induction program generalizing past with
  | done _ | fail _ => exact implies _ _ (List.prefix_refl _) settles
  | await op next ih =>
    exact fun reply => ih reply (settles reply) fun more outcome grown =>
      implies more outcome ((List.prefix_append _ _).trans grown)

theorem Settles.bind {first : Program I ε β} {next}
    (settles : first.Settles (fun more outcome => match outcome with
      | .ok value => (next value).Settles good more
      | .error error => good more (.error error)) past) :
    (first >>= next).Settles good past := by
  induction first generalizing past with
  | done _ | fail _ => exact settles
  | await op rest ih => exact fun reply => ih reply (settles reply)

theorem Settles.seq {first : Program I ε β}
    (rest : ∀ value more, past <+: more → (next value).Settles good more)
    (failed : ∀ error more, past <+: more → good more (.error error)) : (first >>= next).Settles good past := by
  induction first generalizing past with
  | done value => exact rest value past (List.prefix_refl _)
  | fail error => exact failed error past (List.prefix_refl _)
  | await op more ih =>
    exact fun reply => ih reply (fun value more grown => rest value more ((List.prefix_append _ _).trans grown))
      fun error more grown => failed error more ((List.prefix_append _ _).trans grown)

theorem Settles.firstSome {good : List (Event I) → Except ε (Option α) → Prop}
    {first second} (left : first.Settles good past)
    (right : ∀ more, past <+: more → second.Settles good more) : (firstSome first second).Settles good past := by
  refine .bind (left.mono fun more outcome grown holds => ?_)
  match outcome with
  | .ok (some value) => exact holds
  | .ok none => exact right more grown
  | .error error => exact holds

theorem Settles.ofExcept (holds : good past result) :
    (ofExcept result : Program I ε α).Settles good past := by
  cases result <;> exact holds

end

variable {exec} {inv : σ → Prop}

theorem Always.now {good : List (Event I) → Program I ε α → Prop} (always : program.Always exec inv good past) : good past program := by
  cases program with
  | done _ | fail _ => exact always
  | await op next => exact always.1

theorem Always.mono
    {program : Program I ε α} (always : program.Always exec inv good past)
    (implies : ∀ past program, good past program → weaker past program) :
    program.Always exec inv weaker past := by
  induction program generalizing past with
  | done _ | fail _ => exact implies _ _ always
  | await op next ih => exact ⟨implies _ _ always.1, fun store holds => ih _ (always.2 store holds)⟩

theorem Settles.keeps {allowed : I.Op → Prop} {post : Except ε α → Prop} {past : List (Event I)} {program : Program I ε α}
    (settles : program.Settles (fun _ outcome => post outcome) past) (uses : program.Uses allowed)
    (preserved : ∀ op store, allowed op → inv store → inv (exec op store).2) : program.Keeps exec inv post := by
  induction program generalizing past with
  | done _ | fail _ => exact settles
  | await op next ih =>
    exact fun store holds => ⟨preserved op store uses.1 holds, ih _ (settles _) (uses.2 _)⟩

theorem settles_trivial (program : Program I ε α) (past) : program.Settles (fun _ _ => True) past := by
  induction program generalizing past with
  | done _ | fail _ => trivial
  | await op next ih => exact fun reply => ih reply _

theorem Settles.run {post : Except ε α → Prop} {past : List (Event I)} {program : Program I ε α}
    (settles : program.Settles (fun _ outcome => post outcome) past) (store : σ) : post (program.run exec store).1 := by
  induction program generalizing past store with
  | done _ | fail _ => exact settles
  | await op next ih => exact ih _ (settles _) _

theorem Settles.uses_bind {allowed : I.Op → Prop} {post : α → Prop} {past : List (Event I)} {program : Program I ε α} {next : α → Program I ε β}
    (settles : program.Settles (fun _ outcome => ∀ value, outcome = .ok value → post value) past) (uses : program.Uses allowed)
    (rest : ∀ value, post value → (next value).Uses allowed) : (program >>= next).Uses allowed := by
  induction program generalizing past with
  | done value => exact rest value (settles value rfl)
  | fail error => trivial
  | await op more ih => exact ⟨uses.1, fun reply => ih reply (settles reply) (uses.2 reply)⟩

theorem Uses.keeps {allowed : I.Op → Prop} {program : Program I ε α} (uses : program.Uses allowed)
    (preserved : ∀ op store, allowed op → inv store → inv (exec op store).2) :
    program.Keeps exec inv fun _ => True :=
  (program.settles_trivial []).keeps uses preserved

theorem Uses.keeps_seq {post : Except ε β → Prop} {first : Program I ε α}
    (uses : first.Uses allowed) (preserved : ∀ op store, allowed op → inv store → inv (exec op store).2)
    (rest : ∀ value, (next value).Keeps exec inv post) (failed : ∀ error, post (.error error)) :
    (first >>= next).Keeps exec inv post := by
  induction first with
  | done value => exact rest value
  | fail error => exact failed error
  | await op more ih => exact fun store holds => ⟨preserved op store uses.1 holds, ih _ (uses.2 _)⟩

theorem Uses.always {good : List (Event I) → Program I ε α → Prop} {program : Program I ε α}
    (uses : program.Uses allowed) (holds : ∀ past rest, rest.Uses allowed → good past rest) (past) :
    program.Always exec inv good past := by
  induction program generalizing past with
  | done _ | fail _ => exact holds _ _ uses
  | await op next ih => exact ⟨holds _ _ uses, fun store _ => ih _ (uses.2 _) _⟩

theorem Always.bind {good : List (Event I) → Program I ε β → Prop} {first : Program I ε α} {next past}
    (always : first.Always exec inv (fun more point => match point with
      | .done value => (next value).Always exec inv good more
      | .fail error => good more (.fail error)
      | .await op rest => good more (.await op fun reply => rest reply >>= next)) past) :
    (first >>= next).Always exec inv good past := by
  induction first generalizing past with
  | done _ | fail _ => exact always
  | await op rest ih => exact ⟨always.1, fun store holds => ih _ (always.2 store holds)⟩

theorem Keeps.weaken {program : Program I ε α}
    (keeps : program.Keeps exec inv post) (implies : ∀ outcome, post outcome → weaker outcome) :
    program.Keeps exec inv weaker := by
  induction program with
  | done _ | fail _ => exact implies _ keeps
  | await op next ih => exact fun store holds => ⟨(keeps store holds).1, ih _ (keeps store holds).2⟩

theorem Keeps.bind {post : Except ε β → Prop} {program : Program I ε α} {next}
    (first : program.Keeps exec inv (fun outcome => match outcome with
      | .ok value => (next value).Keeps exec inv post
      | .error error => post (.error error))) :
    (program >>= next).Keeps exec inv post := by
  induction program with
  | done _ | fail _ => exact first
  | await op rest ih => exact fun store holds => ⟨(first store holds).1, ih _ (first store holds).2⟩

end Program

namespace Pool
variable [DecidableEq ι] {exec : Machine I σ} {allowed : Pool I ε α σ ι → ι → Prop}
  {initial pool after : Pool I ε α σ ι} {caller : ι}

theorem Reaches.always {inv : σ → Prop} {good : ι → List (Event I) → Program I ε α → Prop}
    (first : ∀ caller, (initial.task caller).program.Always exec inv (good caller) (initial.task caller).past)
    (holds : ∀ pool, Reaches exec allowed initial pool → inv pool.store)
    (reached : Reaches exec allowed initial pool) (caller : ι) :
    (pool.task caller).program.Always exec inv (good caller) (pool.task caller).past := by
  induction reached generalizing caller with
  | start => exact first caller
  | @step pool after moved reached _ moves ih =>
    obtain ⟨op, next, awaiting, -, tasks⟩ := advance_cases moves
    rw [tasks]
    by_cases same : caller = moved
    · subst same
      simp only [Function.update_self]
      have here := ih caller
      rw [awaiting] at here
      exact here.2 _ (holds _ reached)
    · simpa only [Function.update_of_ne same] using ih caller

theorem Reaches.settles {good : ι → List (Event I) → Except ε α → Prop}
    (first : ∀ caller, (initial.task caller).program.Settles (good caller) (initial.task caller).past)
    (reached : Reaches exec allowed initial pool) (caller : ι) :
    (pool.task caller).program.Settles (good caller) (pool.task caller).past := by
  induction reached generalizing caller with
  | start => exact first caller
  | @step pool after moved _ _ moves ih =>
    obtain ⟨op, next, awaiting, -, tasks⟩ := advance_cases moves
    rw [tasks]
    by_cases same : caller = moved
    · subst same
      simp only [Function.update_self]
      have here := ih caller
      rw [awaiting] at here
      exact here _
    · simpa only [Function.update_of_ne same] using ih caller

theorem Reaches.uses {usable : ι → I.Op → Prop}
    (first : ∀ caller, (initial.task caller).program.Uses (usable caller))
    (reached : Reaches exec allowed initial pool) (caller : ι) : (pool.task caller).program.Uses (usable caller) := by
  induction reached generalizing caller with
  | start => exact first caller
  | @step pool after moved _ _ moves ih =>
    obtain ⟨op, next, awaiting, -, tasks⟩ := advance_cases moves
    rw [tasks]
    by_cases same : caller = moved
    · subst same
      simp only [Function.update_self]
      have here := ih caller
      rw [awaiting] at here
      exact here.2 _
    · simpa only [Function.update_of_ne same] using ih caller

theorem advance_keeps {inv : σ → Prop} {post : ι → Except ε α → Prop}
    (holds : inv pool.store) (keeps : ∀ other, (pool.task other).program.Keeps exec inv (post other))
    (moves : pool.advance exec caller = some after) :
    inv after.store ∧ ∀ other, (after.task other).program.Keeps exec inv (post other) := by
  obtain ⟨op, next, awaiting, store, tasks⟩ := advance_cases moves
  have here := keeps caller
  rw [awaiting] at here
  have moved := here pool.store holds
  refine ⟨store ▸ moved.1, fun other => ?_⟩
  rw [tasks]
  by_cases same : other = caller
  · subst same
    simpa only [Function.update_self] using moved.2
  · simpa only [Function.update_of_ne same] using keeps other

theorem Reaches.keeps {inv : σ → Prop} {post : ι → Except ε α → Prop}
    (holds : inv initial.store) (keeps : ∀ other, (initial.task other).program.Keeps exec inv (post other))
    (reached : Reaches exec allowed initial pool) :
    inv pool.store ∧ ∀ other, (pool.task other).program.Keeps exec inv (post other) := by
  induction reached with
  | start => exact ⟨holds, keeps⟩
  | step _ _ moves ih => exact advance_keeps ih.1 ih.2 moves

theorem reaches_run (exec : Machine I σ) (program : Program I ε α) (store : σ) :
    ∃ pool : Pool I ε α σ Unit, Reaches exec anyStep (start store fun _ => program) pool ∧
      (pool.task ()).program.outcome = some (program.run exec store).1 ∧ pool.store = (program.run exec store).2 := by
  suffices general : ∀ past, ∃ pool : Pool I ε α σ Unit, Reaches exec anyStep ⟨store, fun _ => ⟨past, program⟩⟩ pool ∧
      (pool.task ()).program.outcome = some (program.run exec store).1 ∧ pool.store = (program.run exec store).2 from general []
  induction program generalizing store with
  | done _ | fail _ => exact fun past => ⟨_, .start, rfl, rfl⟩
  | await op next ih =>
    intro past
    obtain ⟨pool, reached, settled, left⟩ := ih _ (exec op store).2 (past ++ [⟨op, (exec op store).1⟩])
    refine ⟨pool, Reaches.trans ?_ reached, settled, left⟩
    have moves : advance exec () (⟨store, fun _ => ⟨past, .await op next⟩⟩ : Pool I ε α σ Unit) =
        some ⟨(exec op store).2, fun _ => ⟨past ++ [⟨op, (exec op store).1⟩], next (exec op store).1⟩⟩ := by
      rw [advance]
      congr
    exact .step .start trivial moves

end Pool
end Async
