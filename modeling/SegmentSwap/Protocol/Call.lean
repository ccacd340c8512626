import SegmentSwap.Event
import SegmentSwap.Failure
import SegmentSwap.Protocol.Checks
import SegmentSwap.Protocol.Retry

/-!
# Calls

A call starts a replacement on a table, finishes one or reverts one. It goes through phases, and in
each phase it waits for the answer of one service: the record store, the segment registry, the clock
or the deletion queue. What follows on an answer is decided by functions of the call, the phase and
the answer alone, so that calls of many clients can be interleaved between any two answers.

Every attempt reads the record, checks the call against it and ends in one conditional write. A lost
write leads to a new attempt, as the loop over attempts has it. Any other failure within an attempt
is passed on by that loop at once. Deletions are queued after the write has succeeded, and nothing
else has an effect.
-/

namespace SegmentSwap

/-- What a client asks for. -/
inductive Request where
  /-- Record a new replacement of sources by targets; with force, at the cost of its rivals. -/
  | start (sources targets : List Text) (force : Bool)
  /-- Complete a replacement whose targets are available. -/
  | finish (id : Text)
  /-- Give up a replacement; with force, even if targets are available. -/
  | revert (id : Text) (force : Bool)
  deriving DecidableEq, Repr

/-- A call on a table. -/
structure Call where
  /-- The table. -/
  table : Text
  /-- What is asked for. -/
  request : Request
  /-- How often a conditional write is attempted. -/
  attempts : Int
  /-- How many generations of data a reloaded table may have on disk. -/
  generations : Int
  deriving DecidableEq, Repr

/-- Segments to be deleted for one reason. -/
structure Batch where
  segments : List Text
  reason : Text
  deriving DecidableEq, Repr

/-- What a start has been given before its first attempt. -/
structure Ticket where
  /-- The id of the new entry. -/
  id : Text
  /-- How the table takes in data. -/
  mode : Mode
  deriving DecidableEq, Repr

/-- What every attempt of a call has to do. -/
inductive Job where
  | start (ticket : Ticket) (sources targets : List Text) (force : Bool)
  | finish (id : Text)
  | revert (id : Text) (force : Bool)
  deriving DecidableEq, Repr

/-- An attempt of a call. -/
structure Attempt where
  job : Job
  number : Nat
  deriving DecidableEq, Repr

/-- A commit in the making. -/
structure Plan where
  /-- The entry of the call in its new state. -/
  entry : Entry
  /-- The lineage to be written. -/
  lineage : Lineage
  /-- The version that the record was read with. -/
  expected : Option Version
  /-- The other entries that the commit reverts. -/
  reverted : List Entry
  /-- What is deleted after the commit. -/
  deletions : List Batch
  deriving DecidableEq, Repr

/-- How far a call has come: what it is waiting for. -/
inductive Phase where
  /-- A start waits for an id. -/
  | minting (sources targets : List Text) (force : Bool)
  /-- A start waits for the mode of the table. -/
  | configuring (id : Text) (sources targets : List Text) (force : Bool)
  /-- An attempt waits for the record. -/
  | reading (a : Attempt)
  /-- A start waits for the list of registered segments. -/
  | surveying (a : Attempt) (ticket : Ticket) (sources targets : List Text) (force : Bool)
    (read : Versioned)
  /-- A start that may go ahead waits for the time. -/
  | dating (a : Attempt) (ticket : Ticket) (sources targets : List Text) (read : Versioned)
    (registered : List Text)
  /-- The end of an entry waits to hear about the target `next`, with `rest` to come; `found` holds
  the targets that have been looked at and matter. -/
  | probing (a : Attempt) (read : Versioned) (entry : Entry) (next : Text)
    (rest found : List Text)
  /-- The end of an entry waits for the time. -/
  | closing (a : Attempt) (read : Versioned) (entry : Entry)
  /-- The end of an entry waits for the list of registered segments. -/
  | auditing (a : Attempt) (plan : Plan)
  /-- An attempt waits for the outcome of its write. -/
  | writing (a : Attempt) (plan : Plan)
  /-- A committed call waits for the queue to take the first of its batches. -/
  | queueing (entry : Entry) (first : Batch) (rest : List Batch)
  /-- The call has returned. -/
  | done (result : Except Failure Entry)

/-- The name of what is asked for. -/
def Request.action : Request → Text
  | .start .. => "start_replace_segments"
  | .finish _ => "end_replace_segments"
  | .revert .. => "revert_replace_segments"

namespace Job

/-- The state that the entry of a job is moved to; a new entry starts in progress. -/
def goal : Job → State
  | .start .. => .inProgress
  | .finish _ => .completed
  | .revert .. => .reverted

/-- Whether a target that is or is not available is of interest: what is missing for the completion
of an entry, what stands in the way of its reversal. -/
def concerns (j : Job) (available : Bool) : Bool :=
  match j with
  | .revert .. => available
  | _ => !available

/-- The reason for deleting the segments of the entry itself. -/
def ownReason (j : Job) (id : Text) : Text :=
  match j with
  | .finish _ => "replaced_by:" ++ id
  | _ => "reverted:" ++ id

end Job

namespace Call

/-- The call has failed. The error of an attempt is passed on at once (`Retry.Policy.Answers.error`),
so it ends the call. -/
def fail (f : Failure) : Phase := .done (.error f)

/-- The call is turned down. -/
def refuse (r : Refusal) : Phase := fail (.refusal r)

/-- The first phase. A start is checked before anything is asked. -/
def begin (c : Call) : Phase :=
  match c.request with
  | .start sources targets force =>
    match Check.request c.table sources targets with
    | .error r => refuse r
    | .ok () => .minting sources targets force
  | .finish id => .reading ⟨.finish id, 1⟩
  | .revert id force => .reading ⟨.revert id force, 1⟩

/-- What follows on the mode of the table. -/
def afterMode (id : Text) (sources targets : List Text) (force : Bool) :
    Except Failure Mode → Phase
  | .error f => fail f
  | .ok mode => .reading ⟨.start ⟨id, mode⟩ sources targets force, 1⟩

/-- What follows when all targets of an entry have been looked at. -/
def judge (c : Call) (a : Attempt) (read : Versioned) (entry : Entry) (found : List Text) :
    Phase :=
  match a.job with
  | .revert _ force =>
    if found.isEmpty || force then .closing a read entry
    else refuse (.uploaded found entry.id c.table)
  | _ =>
    if found.isEmpty then .closing a read entry
    else refuse (.notUploaded found entry.id c.table)

/-- Goes on to the next target of an entry. -/
def probe (c : Call) (a : Attempt) (read : Versioned) (entry : Entry) (left found : List Text) :
    Phase :=
  match left with
  | [] => c.judge a read entry found
  | next :: rest => .probing a read entry next rest found

/-- Looks up the entry to be ended. -/
def lookUp (c : Call) (a : Attempt) (read : Versioned) (id : Text) : Phase :=
  match Check.known read.lineage c.table id with
  | .error r => refuse r
  | .ok entry =>
    match Check.movable entry a.job.goal with
    | .error r => refuse r
    | .ok () => c.probe a read entry entry.targets []

/-- What follows on the record. -/
def afterRead (c : Call) (a : Attempt) : Except Failure Versioned → Phase
  | .error f => fail f
  | .ok read =>
    match a.job with
    | .start ticket sources targets force => .surveying a ticket sources targets force read
    | .finish id => c.lookUp a read id
    | .revert id _ => c.lookUp a read id

/-- The checks of a start against a record and the registered segments. -/
def checkStart (c : Call) (sources targets : List Text) (force : Bool) (l : Lineage)
    (registered : List Text) : Except Refusal Unit := do
  Check.targetsFree l c.table targets registered
  Check.sourcesServed c.table sources (l.served registered)
  Check.uncontested l c.table sources force

/-- What follows on the list of registered segments in a start. -/
def afterSurvey (c : Call) (a : Attempt) (ticket : Ticket) (sources targets : List Text)
    (force : Bool) (read : Versioned) : Except Failure (List Text) → Phase
  | .error f => fail f
  | .ok registered =>
    match c.checkStart sources targets force read.lineage registered with
    | .error r => refuse r
    | .ok () => .dating a ticket sources targets read registered

/-- Entries moved to the reverted state. -/
def revertAll (stamp : Text) (entries : List Entry) : Except Failure (List Entry) :=
  entries.mapM fun e => (e.moveTo .reverted stamp).mapError fun f => .refusal (.transition f)

/-- The registered targets of an entry that another call reverts. -/
def batchOf (reason : Text) (registered : List Text) (e : Entry) : Batch :=
  ⟨registeredSubset e.targets registered, reason⟩

/-- The commit of a start: rivals are reverted and the new entry comes last. -/
def planStart (c : Call) (ticket : Ticket) (sources targets : List Text) (read : Versioned)
    (registered : List Text) (stamp : Text) : Except Failure Plan := do
  let reverted ← revertAll stamp (read.lineage.rivals sources)
  let entry : Entry := ⟨ticket.id, sources, targets, .inProgress, stamp⟩
  let replaced ← (read.lineage.replace reverted).mapError .lineage
  let lineage ← (replaced.append entry).mapError .lineage
  let surplus := match ticket.mode with
    | .refresh =>
      [⟨read.lineage.surplus registered c.generations, "refresh_generation_limit"⟩]
    | .append => []
  return ⟨entry, lineage, read.version?, reverted,
    (reverted.map fun e => batchOf ("force_cleanup_reverted:" ++ e.id) registered e) ++ surplus⟩

/-- What follows on the time in a start. -/
def afterDate (c : Call) (a : Attempt) (ticket : Ticket) (sources targets : List Text)
    (read : Versioned) (registered : List Text) (stamp : Text) : Phase :=
  match c.planStart ticket sources targets read registered stamp with
  | .error f => fail f
  | .ok plan => .writing a plan

/-- What follows when it is known whether a target is available. -/
def afterProbe (c : Call) (a : Attempt) (read : Versioned) (entry : Entry) (next : Text)
    (rest found : List Text) : Except Failure Bool → Phase
  | .error f => fail f
  | .ok available =>
    c.probe a read entry rest (if a.job.concerns available then found ++ [next] else found)

/-- The commit of an end, without its deletions: the entry is moved to its final state, and a
completion reverts the entries that lose sources to it. -/
def planEnd (j : Job) (read : Versioned) (entry : Entry) (stamp : Text) :
    Except Failure Plan := do
  let moved ← (entry.moveTo j.goal stamp).mapError fun f => .refusal (.transition f)
  let orphans := match j with
    | .finish _ => read.lineage.orphans moved
    | _ => []
  let reverted ← revertAll stamp orphans
  let lineage ← (read.lineage.replace (moved :: reverted)).mapError .lineage
  return ⟨moved, lineage, read.version?, reverted, []⟩

/-- What follows on the time at the end of an entry. -/
def afterClose (a : Attempt) (read : Versioned) (entry : Entry) (stamp : Text) : Phase :=
  match planEnd a.job read entry stamp with
  | .error f => fail f
  | .ok plan => .auditing a plan

/-- What the end of an entry deletes: the sources of a completed entry, the registered targets of
reverted ones. -/
def endDeletions (j : Job) (plan : Plan) (registered : List Text) : List Batch :=
  let id := plan.entry.id
  match j with
  | .finish _ =>
    ⟨plan.entry.sources, j.ownReason id⟩ ::
      plan.reverted.map (batchOf ("sources_replaced_by:" ++ id) registered)
  | _ => [batchOf (j.ownReason id) registered plan.entry]

/-- What follows on the list of registered segments at the end of an entry. -/
def afterAudit (a : Attempt) (plan : Plan) : Except Failure (List Text) → Phase
  | .error f => fail f
  | .ok registered =>
    .writing a { plan with deletions := endDeletions a.job plan registered }

/-- Goes on to the next batch of deletions. -/
def queue (entry : Entry) : List Batch → Phase
  | [] => .done (.ok entry)
  | b :: rest => if b.segments.isEmpty then queue entry rest else .queueing entry b rest

/-- What is reported after a commit. -/
def committed (c : Call) (a : Attempt) (plan : Plan) : Event :=
  let e := plan.entry
  match a.job with
  | .start _ _ _ force =>
    .started c.table e.id e.sources e.targets force (plan.reverted.map Entry.id)
  | .finish _ => .completed c.table e.id e.sources e.targets (plan.reverted.map Entry.id)
  | .revert _ force => .reverted c.table e.id force

/-- The failure of a call whose loop over attempts has ended. -/
def failureOf (c : Call) : Retry.Ending Failure → Failure
  | .exhausted => .exhausted c.request.action c.table c.attempts
  | .astray => .loop .astray
  | .failed f => f

/-- What an attempt comes to with its write. -/
def outcome : Except Failure Bool → Retry.Outcome Unit Failure
  | .error f => .raised (.error f)
  | .ok false => .raised .lost
  | .ok true => .done ()

/-- What follows on a write as the loop over attempts has it, and what is reported. -/
def afterWrite (c : Call) (a : Attempt) (plan : Plan) :
    List Retry.Act × Option (Except (Retry.Ending Failure) Unit) → List Event × Phase
  | (acts, none) =>
    (Retry.events c.table c.request.action c.attempts acts,
      .reading { a with number := a.number + 1 })
  | (acts, some (.error ending)) =>
    (Retry.events c.table c.request.action c.attempts acts, fail (c.failureOf ending))
  | (acts, some (.ok ())) =>
    (Retry.events c.table c.request.action c.attempts acts ++ [c.committed a plan],
      queue plan.entry plan.deletions)

end Call

/-- What a call asks of its surroundings. Every service works on a common state and may fail, but
for the ones that cannot. -/
structure Services (σ : Type) where
  /-- Mints the id of a new entry. -/
  mint : σ → Text × σ
  /-- How a table takes in data. -/
  mode : Text → σ → Except Failure Mode × σ
  /-- Reads the record of a table. -/
  read : Text → σ → Except Failure Versioned × σ
  /-- Lists the registered segments of a table. -/
  registered : Text → σ → Except Failure (List Text) × σ
  /-- Tells whether a segment of a table is available. -/
  available : Text → Text → σ → Except Failure Bool × σ
  /-- Reads the clock. -/
  stamp : σ → Text × σ
  /-- Writes a lineage if the record has the given version. -/
  write : Lineage → Option Version → σ → Except Failure Bool × σ
  /-- Queues segments of a table for deletion. -/
  enqueue : Text → List Text → Text → σ → σ
  /-- Takes note of an event. -/
  note : Event → σ → σ
  /-- Hands out attempts. -/
  retrying : σ → Retry.Retrying Failure
  /-- Tells why there can be no attempt at all. -/
  obstacle? : σ → Option Failure
  /-- Waits after a lost attempt. -/
  pause : Nat → σ → Retry.Pause Failure

namespace Call

variable {σ : Type}

/-- What the loop over the attempts of a call is told. -/
def policy (svc : Services σ) (c : Call) (s : σ) : Retry.Policy Failure :=
  ⟨c.attempts, svc.obstacle? s, fun number => svc.pause number s⟩

/-- What an attempt reads. The first one reads nothing if the loop has not handed it out. -/
def opened (svc : Services σ) (c : Call) (a : Attempt) (s : σ) (r : Except Failure Versioned) :
    Except Failure Versioned :=
  if a.number = 1 then
    match ((svc.retrying s).first (c.policy svc s)).ending? with
    | none => r
    | some ending => .error (c.failureOf ending)
  else r

/-- One answer of a service and what the call makes of it. -/
def step (svc : Services σ) (c : Call) (phase : Phase) (s : σ) : Phase × σ :=
  match phase with
  | .minting sources targets force =>
    let (id, s) := svc.mint s
    (.configuring id sources targets force, s)
  | .configuring id sources targets force =>
    let (r, s) := svc.mode c.table s
    (afterMode id sources targets force r, s)
  | .reading a =>
    let (r, s') := svc.read c.table s
    (c.afterRead a (c.opened svc a s r), s')
  | .surveying a ticket sources targets force read =>
    let (r, s) := svc.registered c.table s
    (c.afterSurvey a ticket sources targets force read r, s)
  | .dating a ticket sources targets read registered =>
    let (stamp, s) := svc.stamp s
    (c.afterDate a ticket sources targets read registered stamp, s)
  | .probing a read entry next rest found =>
    let (r, s) := svc.available c.table next s
    (c.afterProbe a read entry next rest found r, s)
  | .closing a read entry =>
    let (stamp, s) := svc.stamp s
    (afterClose a read entry stamp, s)
  | .auditing a plan =>
    let (r, s) := svc.registered c.table s
    (afterAudit a plan r, s)
  | .writing a plan =>
    let (r, s) := svc.write plan.lineage plan.expected s
    let (events, phase) :=
      c.afterWrite a plan ((svc.retrying s).after (c.policy svc s) a.number (outcome r))
    (phase, events.foldl (fun s e => svc.note e s) s)
  | .queueing entry b rest => (queue entry rest, svc.enqueue c.table b.segments b.reason s)
  | .done r => (.done r, s)

end Call

/-- A call under way. -/
structure Client where
  call : Call
  phase : Phase

end SegmentSwap
