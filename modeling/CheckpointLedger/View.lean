import CheckpointLedger.Ledger.Step

/-!
# What is shown

The documents in which the ledger shows itself: checkpoints in progress, completed
and failed, the history, snapshots, spans and events. They are for looking at and
are not read back; what is read back has a `Codec`.

A checkpoint is shown in brief among others and in full when it was asked for.
Entries of checkpoints in progress are looked up among the records when they are
shown, so an old history shows what the checkpoint has become.
-/

namespace CheckpointLedger

/-- How much is shown. -/
inductive Extent where
  /-- The figures. -/
  | brief
  /-- The figures and the reports. -/
  | full
deriving DecidableEq, Repr

namespace Extent

/-- Members that are shown in full only. -/
def inFull (e : Extent) (members : List (String × Json)) : List (String × Json) :=
  match e with
  | brief => []
  | full => members

end Extent

namespace Value

/-- The value itself, as a number or a string. -/
def view : Value → Json
  | long n => .int n
  | text s => .text s

/-- The value from all sides. -/
def viewAll (v : Value) : Json :=
  .ofMembers
    [("long", (v.asLong?.map Json.int).getD .null), ("text", encode v.asText?),
     ("display", .text v.display)]

end Value

namespace Attributes

/-- The attributes as pairs, in the order of their names. -/
def view (a : Attributes) : Json :=
  .array (a.entries.map fun b => .array [.text b.1, b.2.view])

end Attributes

namespace Span

/-- A span. -/
def view (s : Span) : Json :=
  .ofMembers
    [("scope", .text s.scope), ("name", .text s.name), ("start", .nat s.start),
     ("end", .nat s.stop), ("attributes", Attributes.view s.attributes)]

end Span

namespace Event

/-- An event. -/
def view (e : Event) : Json :=
  .ofMembers
    [("scope", .text e.scope), ("name", .text e.name), ("observed", .nat e.observed),
     ("attributes", Attributes.view e.attributes)]

end Event

namespace Detail

/-- A detail of a notice. -/
def view : Detail → Json
  | nat n => .nat n
  | flag b => .bool b
  | text s => .text s

end Detail

namespace Effect

/-- An effect, with what the counting gauges read at that moment. -/
def view : Effect → Json
  | notice n =>
    .ofMembers
      [("log", .text n.level.display), ("message", .text n.message),
       ("fields", .ofMembers (n.fields.map fun f => (f.1, f.2.view)))]
  | span s seen => .ofMembers [("span", s.view), ("seen", .array (seen.map Value.view))]
  | event e seen => .ofMembers [("event", e.view), ("seen", .array (seen.map Value.view))]
  | completed seen =>
    .ofMembers [("listener", .text "completed"), ("seen", .array (seen.map Value.view))]
  | failed seen =>
    .ofMembers [("listener", .text "failed"), ("seen", .array (seen.map Value.view))]

end Effect

namespace Properties

/-- The properties and what follows from them. -/
def view (p : Properties) : Json :=
  .ofMembers
    [("kind", encode p.kind), ("retention", encode p.retention),
     ("is_savepoint", .bool p.kind.isSavepoint), ("type_name", .text p.kind.typeName)]

end Properties

namespace GroupReports

/-- The reports of a group and what they add up to. -/
def view (g : GroupReports) : Json :=
  .ofMembers
    [("vertex", .text g.vertex.display), ("parallelism", .nat g.parallelism),
     ("num_acknowledged", .nat g.acknowledged), ("subtasks", encode g.reports),
     ("latest", encode g.latest?), ("checkpointed_size", .nat g.checkpointedSize),
     ("state_size", .nat g.stateSize), ("processed_data", .nat g.processedData),
     ("persisted_data", .nat g.persistedData), ("is_unaligned", .bool g.unaligned)]

end GroupReports

namespace Acknowledged

/-- What the reports of a checkpoint add up to. -/
def view (a : Acknowledged) : Json :=
  .ofMembers
    [("num_acknowledged", .nat a.count), ("checkpointed_size", .nat a.checkpointedSize),
     ("state_size", .nat a.stateSize), ("processed_data", .nat a.processedData),
     ("persisted_data", .nat a.persistedData), ("is_unaligned", .bool a.unaligned),
     ("latest", encode a.latest)]

/-- The reports of a checkpoint, by group. -/
def viewGroups (groups : List GroupReports) : Json := .array (groups.map GroupReports.view)

end Acknowledged

namespace Pending

/-- A checkpoint in progress. -/
def view (p : Pending) (extent : Extent) : Json :=
  .ofMembers
    ([("status", .text Status.inProgress.display), ("id", .nat p.id),
      ("trigger", .nat p.trigger), ("total", .nat p.total),
      ("num_acknowledged", .nat p.count), ("latest_ack", encode p.latestAck?),
      ("finalized", .bool p.finalized),
      ("checkpointed_size", .nat p.acknowledged.checkpointedSize),
      ("state_size", .nat p.acknowledged.stateSize)]
      ++ extent.inFull
        [("properties", p.properties.view), ("latest", encode p.acknowledged.latest),
         ("tasks", Acknowledged.viewGroups p.allGroups)])

end Pending

namespace Completed

/-- A completed checkpoint. -/
def view (c : Completed) (extent : Extent) : Json :=
  .ofMembers
    ([("status", .text Status.completed.display), ("id", .nat c.id),
      ("trigger", .nat c.trigger), ("total", .nat c.total),
      ("num_acknowledged", .nat c.acknowledged.count), ("latest_ack", .nat c.latestAck),
      ("duration", .nat c.duration),
      ("checkpointed_size", .nat c.acknowledged.checkpointedSize),
      ("state_size", .nat c.acknowledged.stateSize),
      ("processed_data", .nat c.acknowledged.processedData),
      ("persisted_data", .nat c.acknowledged.persistedData),
      ("is_unaligned", .bool c.acknowledged.unaligned), ("pointer", encode c.pointer),
      ("metadata_size", .nat c.metadataSize)]
      ++ extent.inFull
        [("properties", c.properties.view), ("latest", encode c.acknowledged.latest),
         ("acknowledged", c.acknowledged.view),
         ("tasks", Acknowledged.viewGroups c.acknowledged.groups)])

end Completed

namespace Failed

/-- A failed checkpoint. -/
def view (f : Failed) (extent : Extent) : Json :=
  .ofMembers
    ([("status", .text Status.failed.display), ("id", .nat f.id), ("trigger", .nat f.trigger),
      ("total", .nat f.total), ("num_acknowledged", .nat f.acknowledged.count),
      ("duration", .nat f.duration), ("failure_ts", .nat f.failureTime),
      ("failure_message", encode f.message)]
      ++ extent.inFull
        [("properties", f.properties.view), ("acknowledged", f.acknowledged.view),
         ("tasks", Acknowledged.viewGroups f.acknowledged.groups)])

end Failed

namespace Conclusion

/-- A checkpoint that ended. -/
def view (c : Conclusion) (extent : Extent) : Json :=
  match c with
  | completed c => c.view extent
  | failed f => f.view extent

end Conclusion

namespace Entry

/-- An entry of a checkpoint of which these facts and details are to be shown. -/
def viewOf (e : Entry) (trigger : Nat) (properties : Properties) (detail : Json) : Json :=
  .ofMembers
    [("id", .nat e.id), ("status", .text e.status.display), ("trigger", .nat trigger),
     ("is_savepoint", .bool properties.kind.isSavepoint),
     ("type_name", .text properties.kind.typeName), ("detail", detail)]

/-- An entry of a history, with the records in which those in progress are looked up. -/
def view (e : Entry) (records : List Pending) (extent : Extent) : Json :=
  match e with
  | concluded c => e.viewOf c.gathered.trigger c.gathered.properties (c.view extent)
  | inProgress _ handle =>
    match records[handle.index]? with
    | some p => e.viewOf p.trigger p.properties (p.view extent)
    | none => .null

end Entry

/-- Something that may be missing. -/
def viewOption {α : Type} (view : α → Json) (a : Option α) : Json := (a.map view).getD .null

namespace Counts

/-- The counts. -/
def view (c : Counts) : Json := encode c

end Counts

namespace History

/-- A history, latest first. -/
def members (h : History) (records : List Pending) : List (String × Json) :=
  [("max_size", .nat h.capacity), ("len", .nat h.entries.length),
   ("is_empty", .bool h.entries.isEmpty),
   ("checkpoints", .array (h.latestFirst.map (·.view records .brief))),
   ("latest_completed", viewOption (·.view .brief) h.latestCompleted),
   ("latest_savepoint", viewOption (·.view .brief) h.latestSavepoint),
   ("latest_failed", viewOption (·.view .brief) h.latestFailed)]

/-- A history as a document. -/
def view (h : History) (records : List Pending) : Json := .ofMembers (h.members records)

end History

namespace Snapshot

/-- A snapshot, as it looks now. -/
def view (s : Snapshot) (records : List Pending) : Json :=
  .ofMembers
    [("counts", s.counts.view), ("summary", encode s.summary),
     ("history", s.history.view records), ("latest_restored", encode s.latestRestored),
     ("latest_initialization", encode s.latestInitialization)]

end Snapshot

namespace Gauge

/-- What all gauges read, in the order of their registration. -/
def viewAll (l : Option Ledger) : Json := .array (all.map fun g => (g.read l).view)

/-- All gauges with their names. -/
def viewNamed (l : Option Ledger) : Json :=
  .array (all.map fun g => .array [.text g.name, (g.read l).view])

end Gauge

end CheckpointLedger
