import AgentTaskPlatform.PiFraming
import AgentTaskPlatform.Transitions

/-!
The requests between the Node worker and `PiProcess.run`. The worker numbers a request,
keeps its promise under the number and puts its line into the output chain; Python takes
only the next number, and answers a request when its handler has finished.
-/

namespace AgentTaskPlatform.PiBridge

open JsonText JsonNumbers PiFraming

structure Call where
  kind : Text
  data : List (Text × Value NodeNumber)

def text (name : String) : Text := points name.toList

def requestRecord (id : Nat) (call : Call) : Value NodeNumber :=
  dictionary ([(text "type", .string (text "request")), (text "id", .string (text (toString id))),
    (text "kind", .string call.kind)] ++ call.data)

inductive Line where
  | request (id : Nat) (call : Call) (promise : Nat)
  | report (entries : List (Text × Value NodeNumber))

def requestIds : List Line → List Nat
  | [] => []
  | .request id _ _ :: rest => id :: requestIds rest
  | .report _ :: rest => requestIds rest

abbrev Answer := Value PyNumber

inductive Settlement where
  | resolved (answer : Answer)
  | rejected (error : String)

section Worker

/-- The state of `serve`. A call of `request` makes the promise of its index; `issued` and
`refused` keep what numbers were given to which promise, and which of them had no line. -/
structure Worker where
  sequence : Nat := 0
  calls : Nat := 0
  aborted : Bool := false
  pending : List (Nat × Nat) := []
  output : List Line := []
  /-- A write has failed, and with it all that follow in the chain. -/
  broken : Bool := false
  settled : List (Nat × Settlement) := []
  issued : List (Nat × Nat) := []
  refused : List Nat := []

namespace Worker

def settle (worker : Worker) (promise : Nat) (settlement : Settlement) : Worker :=
  if worker.settled.any fun entry => entry.1 = promise then worker
  else { worker with settled := worker.settled ++ [(promise, settlement)] }

def rejectAll (error : String) : List Nat → Worker → Worker
  | [], worker => worker
  | promise :: rest, worker => rejectAll error rest (worker.settle promise (.rejected error))

def forget (worker : Worker) (id : Nat) : Worker :=
  { worker with pending := worker.pending.filter fun entry => entry.1 ≠ id }

def abort (worker : Worker) : Worker :=
  { rejectAll "aborted" (worker.pending.map Prod.snd) { worker with aborted := true } with
    pending := [] }

/-- `request`: the number is taken before `send` knows whether there will be a line. The
rejection of `send` reaches `catch` before the next event. -/
def request (runtimes : Runtimes) (call : Call) (worker : Worker) : Worker :=
  let promise := worker.calls
  let called := { worker with calls := promise + 1 }
  if worker.aborted then called.settle promise (.rejected "aborted")
  else
    let id := worker.sequence + 1
    let numbered := { called with sequence := id, issued := worker.issued ++ [(id, promise)] }
    match send runtimes (requestRecord id call) with
    | .error error =>
        ({ numbered with refused := worker.refused ++ [id] }).settle promise (.rejected error)
    | .ok _ =>
        if worker.broken then numbered.settle promise (.rejected "write failed")
        else
          { numbered with
            pending := worker.pending ++ [(id, promise)]
            output := worker.output ++ [.request id call promise] }

def report (runtimes : Runtimes) (entries : List (Text × Value NodeNumber)) (worker : Worker) :
    Worker :=
  match send runtimes (.object entries) with
  | .error _ => worker
  | .ok _ =>
      if worker.broken then worker
      else { worker with output := worker.output ++ [.report entries] }

def failWrites : List Line → Worker → Worker
  | [], worker => worker
  | .request id _ promise :: rest, worker =>
      failWrites rest ((worker.forget id).settle promise (.rejected "write failed"))
  | .report _ :: rest, worker => failWrites rest worker

def respond (id : Nat) (answer : Answer) (worker : Worker) : Worker :=
  match worker.pending.find? fun entry => entry.1 = id with
  | some entry => (worker.forget id).settle entry.2 (.resolved answer)
  | none => worker.abort

end Worker

end Worker

section Loop

inductive Stop where
  /-- A result or error record ends the run. -/
  | reported
  /-- The loop rejects a record. -/
  | rejected (error : Exc)
  /-- A handler has failed, or the run is canceled. -/
  | failed (error : Exc)

/-- The state of `PiProcess.run`. `reached` keeps the numbers of the requests that were
read, `answered` the responses that were written. -/
structure Loop where
  sequence : Nat := 0
  handlers : List Nat := []
  stopped : Option Stop := none
  reached : List Nat := []
  answered : List (Nat × Answer) := []

def maxPendingRequests : Nat := 128

def unexpectedRecord : Exc := protocolError "Unexpected Pi worker record"

namespace Loop

def reject (loop : Loop) (error : Exc) : Loop := { loop with stopped := some (.rejected error) }

def read (loop : Loop) : Line → Loop
  | .report _ => { loop with stopped := some .reported }
  | .request id _ _ =>
      let loop := { loop with reached := loop.reached ++ [id] }
      if id ≠ loop.sequence + 1 then loop.reject unexpectedRecord
      else
        let loop := { loop with sequence := loop.sequence + 1 }
        if maxPendingRequests ≤ loop.handlers.length then
          loop.reject (protocolError "Pi worker exceeded the pending capability request limit")
        else { loop with handlers := loop.handlers ++ [id] }

end Loop

end Loop

structure Bridge where
  worker : Worker := {}
  loop : Loop := {}
  toPython : List Line := []
  toNode : List (Nat × Answer) := []

inductive Action where
  | request (call : Call)
  | report (entries : List (Text × Value NodeNumber))
  | abort
  | write
  | writeFails
  | read
  | answer (id : Nat) (answer : Answer)
  | handlerRaises (id : Nat) (error : Exc)
  | cancel (error : Exc)
  | respond
  /-- The worker cannot parse the next response, and aborts. -/
  | garble

def step (runtimes : Runtimes) (bridge : Bridge) : Action → Option Bridge
  | .request call => some { bridge with worker := bridge.worker.request runtimes call }
  | .report entries => some { bridge with worker := bridge.worker.report runtimes entries }
  | .abort => some { bridge with worker := bridge.worker.abort }
  | .write =>
      match bridge.worker.output with
      | [] => none
      | line :: rest =>
          some { bridge with
            worker := { bridge.worker with output := rest }
            toPython := bridge.toPython ++ [line] }
  | .writeFails =>
      if bridge.worker.output.isEmpty then none
      else
        some { bridge with
          worker := { bridge.worker.failWrites bridge.worker.output with
            output := []
            broken := true } }
  | .read =>
      match bridge.loop.stopped, bridge.toPython with
      | none, line :: rest => some { bridge with loop := bridge.loop.read line, toPython := rest }
      | _, _ => none
  | .answer id answer =>
      if bridge.loop.handlers.contains id then
        some { bridge with
          loop := { bridge.loop with
            handlers := bridge.loop.handlers.filter (· ≠ id)
            answered := bridge.loop.answered ++ [(id, answer)] }
          toNode := bridge.toNode ++ [(id, answer)] }
      else none
  | .handlerRaises id error =>
      if bridge.loop.handlers.contains id then
        some { bridge with
          loop := { bridge.loop with
            handlers := bridge.loop.handlers.filter (· ≠ id)
            stopped := bridge.loop.stopped.or (some (.failed error)) } }
      else none
  | .cancel error =>
      match bridge.loop.stopped with
      | none => some { bridge with loop := { bridge.loop with stopped := some (.failed error) } }
      | some _ => none
  | .respond =>
      match bridge.toNode with
      | [] => none
      | (id, answer) :: rest =>
          some { bridge with worker := bridge.worker.respond id answer, toNode := rest }
  | .garble =>
      match bridge.toNode with
      | [] => none
      | _ :: rest => some { bridge with worker := bridge.worker.abort, toNode := rest }

end AgentTaskPlatform.PiBridge
