import WalletToolbox.Async.Pool

/-! Programs against whatever replies they get. A trace is the list of the operations a
program has completed; an environment is what it allows to be replied after a trace. -/

namespace Async.Program
variable {I : Interface} {ε α β : Type}

inductive Answers : Program I ε α → List (Event I) → Except ε α → Prop
  | done (value : α) : Answers (.done value) [] (.ok value)
  | fail (error : ε) : Answers (.fail error) [] (.error error)
  | await {op : I.Op} {next : I.Reply op → Program I ε α} {events : List (Event I)} {outcome : Except ε α} (reply : I.Reply op)
      (rest : Answers (next reply) events outcome) : Answers (.await op next) (⟨op, reply⟩ :: events) outcome

/-- The operations a lone run completes. -/
def trace {σ : Type} (exec : Machine I σ) : Program I ε α → σ → List (Event I)
  | .done _, _ | .fail _, _ => []
  | .await op next, store => ⟨op, (exec op store).1⟩ :: (next (exec op store).1).trace exec (exec op store).2

theorem Uses.trace {exec : Machine I σ} {program : Program I ε α} (uses : program.Uses allowed) (store : σ) :
    ∀ event ∈ program.trace exec store, allowed event.op := by
  induction program generalizing store with
  | done _ | fail _ => intro event member; cases member
  | await op next ih =>
    intro event member
    rcases List.mem_cons.mp member with rfl | later
    · exact uses.1
    · exact ih _ (uses.2 _) _ event later

def Allows (allowed : List (Event I) → Event I → Prop) (events : List (Event I)) : Prop :=
  ∀ earlier event later, events = earlier ++ event :: later → allowed earlier event

theorem allows_nil : Allows allowed [] := by
  intro earlier event later same
  simp at same

theorem Allows.append {allowed : List (Event I) → Event I → Prop} {events event} (allows : Allows allowed events)
    (permitted : allowed events event) : Allows allowed (events ++ [event]) := by
  intro earlier other later same
  rcases List.eq_nil_or_concat later with rfl | ⟨later, last, rfl⟩
  · obtain ⟨rfl, rfl⟩ := List.append_singleton_inj.mp same
    exact permitted
  · rw [List.concat_eq_append, ← List.cons_append, ← List.append_assoc] at same
    exact allows earlier other later (List.append_singleton_inj.mp same).1

theorem allows_one (permitted : allowed [] event) : Allows allowed [event] :=
  Allows.append allows_nil permitted

def replay [DecidableEq I.Op] : Program I ε α → List (Event I) → Option (Except ε α)
  | .done value, [] => some (.ok value)
  | .fail error, [] => some (.error error)
  | .await op next, event :: rest => if same : event.op = op then (next (same ▸ event.reply)).replay rest else none
  | _, _ => none

theorem answers_of_replay [DecidableEq I.Op] {program : Program I ε α} {events outcome}
    (replayed : program.replay events = some outcome) : program.Answers events outcome := by
  induction program generalizing events with
  | done value =>
    cases events with
    | nil =>
      cases replayed
      exact .done value
    | cons _ _ => cases replayed
  | fail error =>
    cases events with
    | nil =>
      cases replayed
      exact .fail error
    | cons _ _ => cases replayed
  | await op next ih =>
    cases events with
    | nil => cases replayed
    | cons event rest =>
      obtain ⟨other, reply⟩ := event
      unfold replay at replayed
      split at replayed
      · next same =>
        subst same
        exact .await reply (ih reply replayed)
      · cases replayed

def Along (allowed : List (Event I) → Event I → Prop) (post : List (Event I) → Except ε α → Prop) :
    Program I ε α → List (Event I) → Prop
  | .done value, past => post past (.ok value)
  | .fail error, past => post past (.error error)
  | .await op next, past => ∀ reply, allowed past ⟨op, reply⟩ → (next reply).Along allowed post (past ++ [⟨op, reply⟩])

variable {allowed : List (Event I) → Event I → Prop} {past : List (Event I)}

theorem Along.bind {post : List (Event I) → Except ε β → Prop} {program : Program I ε α} {next}
    (first : program.Along allowed (fun more outcome => match outcome with
      | .ok value => (next value).Along allowed post more
      | .error error => post more (.error error)) past) :
    (program >>= next).Along allowed post past := by
  induction program generalizing past with
  | done value => exact first
  | fail error => exact first
  | await op rest ih => exact fun reply permitted => ih reply (first reply permitted)

theorem Along.mono {program : Program I ε α} (along : program.Along allowed post past)
    (implies : ∀ more outcome, post more outcome → weaker more outcome) : program.Along allowed weaker past := by
  induction program generalizing past with
  | done value => exact implies _ _ along
  | fail error => exact implies _ _ along
  | await op rest ih => exact fun reply permitted => ih reply (along reply permitted)

theorem along_always (always : ∀ more outcome, post more outcome) (program : Program I ε α) :
    program.Along allowed post past := by
  induction program generalizing past with
  | done value => exact always _ _
  | fail error => exact always _ _
  | await op rest ih => exact fun reply _ => ih reply

theorem Along.and {program : Program I ε α} (first : program.Along allowed post past)
    (second : program.Along allowed other past) : program.Along allowed (fun more outcome => post more outcome ∧ other more outcome) past := by
  induction program generalizing past with
  | done value => exact ⟨first, second⟩
  | fail error => exact ⟨first, second⟩
  | await op rest ih => exact fun reply permitted => ih reply (first reply permitted) (second reply permitted)

theorem Along.answered {program : Program I ε α} {events outcome}
    (along : program.Along allowed post past) (answered : program.Answers events outcome)
    (allows : ∀ earlier event later, events = earlier ++ event :: later → allowed (past ++ earlier) event) : post (past ++ events) outcome := by
  induction answered generalizing past with
  | done value =>
    rw [List.append_nil]
    exact along
  | fail error =>
    rw [List.append_nil]
    exact along
  | @await op next events outcome reply rest ih =>
    have permitted : allowed past ⟨op, reply⟩ := by simpa using allows [] _ _ rfl
    have later := ih (along reply permitted) fun earlier event later same => by
      have shifted := allows (⟨op, reply⟩ :: earlier) event later (congrArg (⟨op, reply⟩ :: ·) same)
      simpa using shifted
    simpa using later

theorem Along.of_allows {program : Program I ε α} {events outcome}
    (along : program.Along allowed post []) (answered : program.Answers events outcome) (allows : Allows allowed events) : post events outcome := by
  have ends := along.answered answered fun earlier event later same => by simpa using allows earlier event later same
  simpa using ends

theorem Uses.answers {allowed : I.Op → Prop} {program : Program I ε α} {events outcome} (uses : program.Uses allowed)
    (answers : program.Answers events outcome) : ∀ event ∈ events, allowed event.op := by
  induction answers with
  | done _ | fail _ => exact List.forall_mem_nil _
  | await reply rest ih => exact List.forall_mem_cons.mpr ⟨uses.1, ih (uses.2 reply)⟩

theorem Answers.bind {program : Program I ε α} {next : α → Program I ε β} {first rest value outcome}
    (answers : program.Answers first (.ok value)) (later : (next value).Answers rest outcome) : (program >>= next).Answers (first ++ rest) outcome := by
  induction program generalizing first with
  | done _ =>
    cases answers
    exact later
  | fail _ => cases answers
  | await op more ih =>
    cases answers with
    | await reply answers => exact .await reply (ih reply answers)

theorem answers_bind {program : Program I ε α} {next : α → Program I ε β} {events outcome}
    (answers : (program >>= next).Answers events outcome) :
    (∃ value first rest, events = first ++ rest ∧ program.Answers first (.ok value) ∧ (next value).Answers rest outcome) ∨
      ∃ error, outcome = .error error ∧ program.Answers events (.error error) := by
  induction program generalizing events with
  | done value => exact .inl ⟨value, [], events, rfl, .done value, answers⟩
  | fail error =>
    cases answers
    exact .inr ⟨error, rfl, .fail error⟩
  | await op more ih =>
    cases answers with
    | await reply answers =>
      rcases ih reply answers with ⟨value, first, rest, rfl, before, after⟩ | ⟨error, same, before⟩
      · exact .inl ⟨value, _, rest, rfl, .await reply before, after⟩
      · exact .inr ⟨error, same, .await reply before⟩

theorem answers_settle {program : Program I ε α} {events outcome} :
    (program.settle : Program I ε' _).Answers events outcome ↔ ∃ settled, outcome = .ok settled ∧ program.Answers events settled := by
  induction program generalizing events with
  | done value =>
    constructor
    · intro answers
      cases answers
      exact ⟨_, rfl, .done value⟩
    · rintro ⟨_, rfl, answers⟩
      cases answers
      exact .done _
  | fail error =>
    constructor
    · intro answers
      cases answers
      exact ⟨_, rfl, .fail error⟩
    · rintro ⟨_, rfl, answers⟩
      cases answers
      exact .done _
  | await op more ih =>
    constructor
    · intro answers
      cases answers with
      | await reply answers =>
        obtain ⟨settled, same, before⟩ := (ih reply).mp answers
        exact ⟨settled, same, .await reply before⟩
    · rintro ⟨settled, rfl, answers⟩
      cases answers with
      | await reply answers => exact .await reply ((ih reply).mpr ⟨settled, rfl, answers⟩)

theorem answers_ofExcept {result events outcome} :
    (ofExcept result : Program I ε α).Answers events outcome ↔ events = [] ∧ outcome = result := by
  cases result <;> constructor
  · intro answers
    cases answers
    exact ⟨rfl, rfl⟩
  · rintro ⟨rfl, rfl⟩
    exact .fail _
  · intro answers
    cases answers
    exact ⟨rfl, rfl⟩
  · rintro ⟨rfl, rfl⟩
    exact .done _

theorem answers_mapM {each : α → Program I ε β} {values : List α} {events results}
    (answers : (values.mapM each).Answers events (.ok results)) :
    ∀ result ∈ results, ∃ value ∈ values, ∃ part, (each value).Answers part (.ok result) := by
  induction values generalizing events results with
  | nil =>
    cases answers
    exact List.forall_mem_nil _
  | cons first rest ih =>
    rw [List.mapM_cons] at answers
    rcases answers_bind answers with ⟨one, before, after, rfl, here, answers⟩ | ⟨error, same, -⟩
    · rcases answers_bind answers with ⟨others, middle, last, rfl, there, answers⟩ | ⟨error, same, -⟩
      · cases answers
        intro result member
        rcases List.mem_cons.mp member with rfl | member
        · exact ⟨first, .head _, before, here⟩
        · obtain ⟨value, inside, part⟩ := ih there result member
          exact ⟨value, .tail _ inside, part⟩
      · cases same
    · cases same

theorem Answers.mapM {each : α → Program I ε β} {result : α → β} {part}
    (answers : ∀ value, (each value).Answers (part value) (.ok (result value))) (values : List α) :
    (values.mapM each).Answers (values.flatMap part) (.ok (values.map result)) := by
  induction values with
  | nil => exact .done _
  | cons first rest ih =>
    rw [List.mapM_cons, List.flatMap_cons]
    have tail : (rest.mapM each >>= fun others => pure (result first :: others)).Answers (rest.flatMap part ++ []) (.ok ((first :: rest).map result)) :=
      ih.bind (.done _)
    rw [List.append_nil] at tail
    exact (answers first).bind tail

end Async.Program
