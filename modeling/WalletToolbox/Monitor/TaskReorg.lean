import WalletToolbox.Effects.EventRuns
import WalletToolbox.Proving.ProofPaths

/-! The task that replaces the proofs of deactivated headers. Headers wait on the monitor's
list until they are old enough, and on the list of the task until they are processed; one that
may have to be tried again goes back to the first. -/

namespace WalletToolbox
open Chaintracks WalletStorageManager

structure DeactivedHeader where
  whenMsecs : Int
  tries : Nat
  header : BlockHeader
deriving DecidableEq, Repr

structure WaitingHeader extends DeactivedHeader where
  push : Nat
deriving DecidableEq, Repr

structure ReproveHeaderResult where
  updated : List (TableProvenTx × ProofUpdate) := []
  unchanged : List TableProvenTx := []
  unavailable : List TableProvenTx := []

/-- One round of the loop over the proofs of a header. -/
def ReproveHeaderResult.add (r : ReproveHeaderResult) (ptx : TableProvenTx) : Reproven → ReproveHeaderResult
  | .updated update => { r with updated := r.updated ++ [(ptx, update)] }
  | .unchanged => { r with unchanged := r.unchanged ++ [ptx] }
  | .unavailable => { r with unavailable := r.unavailable ++ [ptx] }

inductive ReprovePhase where
  | finding
  | proving (ptx : TableProvenTx) (left : List TableProvenTx)
  | updating (next : TableProvenTx × ProofUpdate) (left : List (TableProvenTx × ProofUpdate))
  | returned
  | threw

structure ReproveCall where
  header : WaitingHeader
  began : Int
  phase : ReprovePhase := .finding
  found : List TableProvenTx := []
  r : ReproveHeaderResult := {}
  wrote : List (TableProvenTx × ProofUpdate) := []
  ended : Int := 0

structure TaskReorg where
  agedMsecs : Int := 10 * 60 * 1000
  maxRetries : Nat := 3

/-- The two lists of headers, the calls of `reproveHeader` that are on their way, and those
that have ended. -/
structure ReorgRun where
  provenTxs : List TableProvenTx
  deactivatedHeaders : List WaitingHeader := []
  process : List WaitingHeader := []
  flying : List ReproveCall := []
  ended : List ReproveCall := []
  pushes : Nat := 0
  clock : Int := 0

/-- The service and storage calls of a `reproveHeader` are answered one by one. -/
inductive ReorgEvent where
  | push (header : BlockHeader) (whenMsecs : Int)
  | trigger
  | runTask
  | found (call : Nat)
  | reproved (call : Nat) (reproven : Reproven)
  | updated (call : Nat)
  | threw (call : Nat)
  | storageChanged (provenTxs : List TableProvenTx)

namespace ReorgRun

def trigger (task : TaskReorg) (nowMsecsSinceEpoch : Int) (run : ReorgRun) : Bool × ReorgRun :=
  let cutoff := nowMsecsSinceEpoch - task.agedMsecs
  let process := run.process ++ run.deactivatedHeaders.takeWhile (cutoff > ·.whenMsecs)
  (!process.isEmpty, { run with process, deactivatedHeaders := run.deactivatedHeaders.dropWhile (cutoff > ·.whenMsecs) })

/-- The loop of `runTask` takes the next header, or ends. -/
def shift (now : Int) (run : ReorgRun) : ReorgRun :=
  match run.process with
  | header :: rest => { run with process := rest, flying := run.flying ++ [{ header, began := now }] }
  | [] => run

def setCall (number : Nat) (call : ReproveCall) (run : ReorgRun) : ReorgRun := { run with flying := run.flying.set number call }

def endCall (number : Nat) (call : ReproveCall) (run : ReorgRun) : ReorgRun :=
  { run with flying := run.flying.eraseIdx number, ended := run.ended ++ [call] }

/-- A header goes back to the monitor's list while some proof of it is not replaced. -/
def retry (task : TaskReorg) (now : Int) (call : ReproveCall) (run : ReorgRun) : ReorgRun :=
  if call.r.unavailable ≠ [] ∨ call.r.unchanged ≠ [] then
    if call.header.tries + 1 ≥ task.maxRetries then run
    else
      { run with deactivatedHeaders := run.deactivatedHeaders ++
          [{ header := call.header.header, whenMsecs := now, tries := call.header.tries + 1, push := call.header.push }] }
  else run

def finish (task : TaskReorg) (now : Int) (number : Nat) (call : ReproveCall) (run : ReorgRun) : ReorgRun :=
  shift now (retry task now call (endCall number { call with phase := .returned, ended := now } run))

/-- The next update, or the end. -/
def goUpdating (task : TaskReorg) (now : Int) (number : Nat) (call : ReproveCall) (left : List (TableProvenTx × ProofUpdate)) (run : ReorgRun) :
    ReorgRun :=
  match left with
  | next :: rest => setCall number { call with phase := .updating next rest } run
  | [] => finish task now number call run

/-- The next proof, or the updates once all have been looked at. -/
def goProving (task : TaskReorg) (now : Int) (number : Nat) (call : ReproveCall) (left : List TableProvenTx) (run : ReorgRun) : ReorgRun :=
  match left with
  | ptx :: rest => setCall number { call with phase := .proving ptx rest } run
  | [] => goUpdating task now number call call.r.updated run

def updateProvenTx (entry : TableProvenTx × ProofUpdate) (provenTxs : List TableProvenTx) : List TableProvenTx :=
  provenTxs.map fun row => if row.provenTxId = entry.1.provenTxId then entry.2.spread row else row

def act (task : TaskReorg) (now : Int) (run : ReorgRun) : ReorgEvent → Option ReorgRun
  | .push header whenMsecs =>
    some { run with
      deactivatedHeaders := run.deactivatedHeaders ++ [{ whenMsecs, tries := 0, header, push := run.pushes }], pushes := run.pushes + 1 }
  | .trigger => some (run.trigger task now).2
  | .runTask => some (shift now run)
  | .found number =>
    match run.flying[number]? with
    | some call =>
      match call.phase with
      | .finding =>
        let ptxs := run.provenTxs.filter (·.blockHash = call.header.header.hash)
        some (goProving task now number { call with found := ptxs } ptxs run)
      | _ => none
    | none => none
  | .reproved number reproven =>
    match run.flying[number]? with
    | some call =>
      match call.phase with
      | .proving ptx left => some (goProving task now number { call with r := call.r.add ptx reproven } left run)
      | _ => none
    | none => none
  | .updated number =>
    match run.flying[number]? with
    | some call =>
      match call.phase with
      | .updating entry left =>
        some (goUpdating task now number { call with wrote := call.wrote ++ [entry] } left
          { run with provenTxs := updateProvenTx entry run.provenTxs })
      | _ => none
    | none => none
  | .threw number =>
    match run.flying[number]? with
    | some call => some (endCall number { call with phase := .threw, ended := now } run)
    | none => none
  | .storageChanged provenTxs => some { run with provenTxs }

/-- An event at its time. -/
def step (task : TaskReorg) (run : ReorgRun) (event : Int × ReorgEvent) : Option ReorgRun :=
  if run.clock ≤ event.1 then act task event.1 { run with clock := event.1 } event.2 else none

end ReorgRun
end WalletToolbox
