import WalletToolbox.Async.Pool

/-! Callers that rely on one another. A caller may be disturbed between any two of its
operations, but only as its contract says; in return every operation it completes
keeps its promise. What is proved of each caller alone then holds of all of them
together, whatever the schedule. -/

namespace Async

/-- What one caller relies on and promises. Each part may depend on how far it has come. -/
structure Contract (I : Interface) (σ : Type) where
  rely : List (Event I) → σ → σ → Prop
  permitted : List (Event I) → I.Op → σ → Prop
  promises : List (Event I) → I.Op → σ → Prop

variable {I : Interface} {ε ε' α β σ ι : Type}

namespace Program
variable (exec : Machine I σ) (contract : Contract I σ)

def Guarded (post : List (Event I) → Except ε α → σ → Prop) : List (Event I) → Program I ε α → σ → Prop
  | past, .done value, store => post past (.ok value) store
  | past, .fail error, store => post past (.error error) store
  | past, .await op next, store => ∀ current, contract.rely past store current → contract.permitted past op current →
      contract.promises past op current ∧
        (next (exec op current).1).Guarded post (past ++ [⟨op, (exec op current).1⟩]) (exec op current).2

variable {exec contract} {past : List (Event I)} {store : σ}

theorem Guarded.mono {program : Program I ε α}
    (guarded : program.Guarded exec contract post past store)
    (implies : ∀ more outcome after, post more outcome after → weaker more outcome after) :
    program.Guarded exec contract weaker past store := by
  induction program generalizing past store with
  | done _ | fail _ => exact implies _ _ _ guarded
  | await op next ih =>
    intro current relied permitted
    obtain ⟨promised, rest⟩ := guarded current relied permitted
    exact ⟨promised, ih _ rest⟩

theorem Guarded.bind {post : List (Event I) → Except ε β → σ → Prop} {program : Program I ε α} {next}
    (first : program.Guarded exec contract (fun more outcome after => match outcome with
      | .ok value => (next value).Guarded exec contract post more after
      | .error error => post more (.error error) after) past store) :
    (program >>= next).Guarded exec contract post past store := by
  induction program generalizing past store with
  | done _ | fail _ => exact first
  | await op rest ih =>
    intro current relied permitted
    obtain ⟨promised, remaining⟩ := first current relied permitted
    exact ⟨promised, ih _ remaining⟩

theorem Guarded.handle {post : List (Event I) → Except ε' α → σ → Prop} {program : Program I ε α}
    (first : program.Guarded exec contract (fun more outcome after => match outcome with
      | .ok value => post more (.ok value) after
      | .error error => (handler error).Guarded exec contract post more after) past store) :
    (program.handle handler).Guarded exec contract post past store := by
  induction program generalizing past store with
  | done _ | fail _ => exact first
  | await op rest ih =>
    intro current relied permitted
    obtain ⟨promised, remaining⟩ := first current relied permitted
    exact ⟨promised, ih _ remaining⟩

theorem Guarded.settle {program : Program I ε α}
    (first : program.Guarded exec contract (fun more outcome after => post more (.ok outcome) after) past store) :
    (program.settle : Program I ε' _).Guarded exec contract post past store := by
  induction program generalizing past store with
  | done _ | fail _ => exact first
  | await op rest ih =>
    intro current relied permitted
    obtain ⟨promised, remaining⟩ := first current relied permitted
    exact ⟨promised, ih _ remaining⟩

theorem Guarded.disturbed {program : Program I ε α}
    (trans : ∀ past first second third, contract.rely past first second → contract.rely past second third →
      contract.rely past first third)
    (stable : ∀ past outcome before after, post past outcome before → contract.rely past before after → post past outcome after)
    (guarded : program.Guarded exec contract post past store) (relied : contract.rely past store after) :
    program.Guarded exec contract post past after := by
  cases program with
  | done _ | fail _ => exact stable _ _ _ _ guarded relied
  | await op next =>
    intro current later permitted
    exact guarded current (trans _ _ _ _ relied later) permitted

end Program

namespace Pool
variable [DecidableEq ι] {exec : Machine I σ} {allowed : Pool I ε α σ ι → ι → Prop} {initial pool : Pool I ε α σ ι}
  {inv : σ → Prop} {contract : ι → Contract I σ} {post : ι → List (Event I) → Except ε α → σ → Prop}

structure Contracted (exec : Machine I σ) (allowed : Pool I ε α σ ι → ι → Prop) (inv : σ → Prop) (contract : ι → Contract I σ)
    (post : ι → List (Event I) → Except ε α → σ → Prop) : Prop where
  steady : ∀ caller past store, inv store → (contract caller).rely past store store
  trans : ∀ caller past first second third, (contract caller).rely past first second → (contract caller).rely past second third →
    (contract caller).rely past first third
  stable : ∀ caller past outcome before after, post caller past outcome before → (contract caller).rely past before after →
    post caller past outcome after
  permits : ∀ pool caller op next, inv pool.store → allowed pool caller → (pool.task caller).program = .await op next →
    (contract caller).permitted (pool.task caller).past op pool.store
  keeps : ∀ pool caller op next, inv pool.store → allowed pool caller → (pool.task caller).program = .await op next →
    (contract caller).promises (pool.task caller).past op pool.store → inv (exec op pool.store).2
  spares : ∀ pool caller other op next, inv pool.store → allowed pool caller → (pool.task caller).program = .await op next →
    (contract caller).promises (pool.task caller).past op pool.store → other ≠ caller →
    (contract other).rely (pool.task other).past pool.store (exec op pool.store).2

/-- Callers that each keep their contract keep them together. -/
theorem Reaches.guarded (contracted : Contracted exec allowed inv contract post) (holds : inv initial.store)
    (guarded : ∀ caller, (initial.task caller).program.Guarded exec (contract caller) (post caller) (initial.task caller).past initial.store)
    (reached : Reaches exec allowed initial pool) :
    inv pool.store ∧
      ∀ caller, (pool.task caller).program.Guarded exec (contract caller) (post caller) (pool.task caller).past pool.store := by
  induction reached with
  | start => exact ⟨holds, guarded⟩
  | @step pool after moved _ permitted moves ih =>
    obtain ⟨held, kept⟩ := ih
    obtain ⟨op, next, awaiting, store, tasks⟩ := advance_cases moves
    have here := kept moved
    rw [awaiting] at here
    obtain ⟨promised, rest⟩ := here pool.store (contracted.steady moved _ _ held) (contracted.permits pool moved op next held permitted awaiting)
    refine ⟨store ▸ contracted.keeps pool moved op next held permitted awaiting promised, fun caller => ?_⟩
    rw [tasks, store]
    by_cases same : caller = moved
    · subst same
      rw [Function.update_self]
      exact rest
    · rw [Function.update_of_ne same]
      exact (kept caller).disturbed (contracted.trans caller) (contracted.stable caller)
        (contracted.spares pool moved caller op next held permitted awaiting promised same)

theorem Reaches.promised (contracted : Contracted exec allowed inv contract post) (holds : inv initial.store)
    (guarded : ∀ caller, (initial.task caller).program.Guarded exec (contract caller) (post caller) (initial.task caller).past initial.store)
    (reached : Reaches exec allowed initial pool)
    (permitted : allowed pool caller) (awaiting : (pool.task caller).program = .await op next) :
    (contract caller).promises (pool.task caller).past op pool.store := by
  obtain ⟨held, kept⟩ := reached.guarded contracted holds guarded
  have here := kept caller
  rw [awaiting] at here
  exact (here pool.store (contracted.steady caller _ _ held) (contracted.permits pool caller op next held permitted awaiting)).1

end Pool
end Async
