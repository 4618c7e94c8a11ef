import CheckpointLedger.Proofs.Visits

/-!
# The result of a checkpoint

Whoever holds a handle may ask for the result, as that of a checkpoint that succeeded or
of one that did not, and may ask as often as he likes. It is given once. What it says is
what the record took until then (`Kept`), and the record goes on saying the same.

What a record took is read off the operations and their answers (`taken`), from the
registration on: the reports to its handle, and those to the ledger under its id, that
were answered as taken.
-/

namespace CheckpointLedger

namespace Ledger

theorem length_run (l : Ledger) (ops : List Operation) : (l.run ops).length = ops.length := by
  induction ops generalizing l with
  | nil => rfl
  | cons o rest ih => exact congrArg (· + 1) (ih (l.perform o).ledger)

/-- The reports that a checkpoint took, in the order in which they came. -/
def taken (l : Ledger) (r : Nat × Handle) (ops : List Operation) : List (VertexId × Report) :=
  (ops.zip (l.run ops)).filterMap (fun s => s.1.taken? r s.2.answer)

theorem taken_append (l : Ledger) (r : Nat × Handle) (first second : List Operation) :
    l.taken r (first ++ second) = l.taken r first ++ (l.after first).taken r second := by
  rw [taken, run_append, List.zip_append (l.length_run first).symm, List.filterMap_append]
  rfl

theorem taken_concat (l : Ledger) (r : Nat × Handle) (ops : List Operation) (o : Operation) :
    l.taken r (ops ++ [o]) =
      l.taken r ops ++ (o.taken? r ((l.after ops).perform o).answer).toList := by
  rw [taken, run_concat, List.zip_append (l.length_run ops).symm]
  exact Journal.filterMap_concat _ _ _

/-! ## What a record holds -/

/-- What is known of a record from its registration on. -/
structure Kept (registered : Pending) (groups : OrderedMap VertexId Nat)
    (taken : List (VertexId × Report)) (given : Bool) (p : Pending) : Prop where
  /-- It is the record of the checkpoint that was registered. -/
  id : p.id = registered.id
  /-- That was triggered then. -/
  trigger : p.trigger = registered.trigger
  /-- Its kind and policy are the same. -/
  properties : p.properties = registered.properties
  /-- It has these groups and took these reports. -/
  holds : Pending.Holds groups taken p
  /-- Whether its result was given. -/
  finalized : p.finalized = given

variable {registered p p' : Pending} {groups : OrderedMap VertexId Nat}
  {taken : List (VertexId × Report)} {given : Bool}

/-- **Preserved by every operation.** -/
theorem kept_visit {r : Nat × Handle} {o : Operation} {a : Answer} (hvisit : Visit r p o a p')
    (h : Kept registered groups taken given p) :
    Kept registered groups (taken ++ (o.taken? r a).toList)
      (given || decide (o.asked? = some r.2)) p' := by
  -- who asks for the result brings no report
  have hnone (hasked : o.asked? = some r.2) : o.taken? r a = none := by
    refine Operation.taken?_eq_none ?_ a
    cases o with
    | acknowledge _ _ _ => cases hasked
    | route _ _ _ => cases hasked
    | _ => rfl
  cases hvisit with
  | passed hasked htaken =>
    rw [htaken, decide_eq_false hasked, Bool.or_false, Option.toList_none, List.append_nil]
    exact h
  | @took vertex report hasked htaken hrefusal =>
    rw [htaken, decide_eq_false hasked, Bool.or_false]
    have hempty := ((p.refusal?_eq_none_iff vertex report).mp hrefusal).2
    exact ⟨h.id, h.trigger, h.properties, Pending.holds_fill h.holds hempty, h.finalized⟩
  | gave hasked hopen hanswer hc =>
    rw [hnone hasked, decide_eq_true hasked, Bool.or_true, Option.toList_none, List.append_nil]
    obtain ⟨hparallelisms, hslots, hdistinct, hcount, hbound, hattained⟩ := h.holds
    exact ⟨h.id, h.trigger, h.properties,
      ⟨hparallelisms, hslots, hdistinct, hcount, hbound, hattained⟩, rfl⟩
  | declined hasked hdone hanswer =>
    rw [hnone hasked, decide_eq_true hasked, Bool.or_true, Option.toList_none, List.append_nil]
    exact ⟨h.id, h.trigger, h.properties, h.holds, hdone⟩

/-! ## From the registration on -/

section Since

variable {config : Config} {before : List Operation} {id trigger : Nat}
  {properties : Properties} {handle : Handle}
  (h : (((new config).after before).perform (.register id trigger properties groups)).answer =
    .registered handle)

include h

/-- Whatever is done later, the checkpoint is told by its id and by its handle. -/
theorem known_since (later : List Operation) :
    Known ((((new config).after before).perform
      (.register id trigger properties groups)).ledger.after later) (id, handle) := by
  have hr : (id, handle) ∈ ((new config).journal
      (before ++ [.register id trigger properties groups])).registrations := by
    rw [journal_concat, Journal.registrations_append, posting?, h]
    exact List.mem_append_right _ List.mem_cons_self
  have hknown := known_later hr later
  rwa [after_concat] at hknown

/-- **What a record has come to since its registration.** -/
theorem kept_since (ops : List Operation) :
    let start := (((new config).after before).perform (.register id trigger properties groups)).ledger
    ∃ p, (start.after ops).record? handle = some p ∧
      Kept (.new id trigger properties groups) groups (start.taken (id, handle) ops)
        (ops.any (·.asked? = some handle)) p := by
  intro start
  induction ops using List.reverseRecOn with
  | nil =>
    have hposted : ((new config).after before).posting? (.register id trigger properties groups) =
        some (.registered (.new id trigger properties groups) handle) := by
      rw [posting?, h]
      rfl
    obtain ⟨-, rfl, hledger⟩ := enter_of_registered hposted
    refine ⟨.new id trigger properties groups, ?_, rfl, rfl, rfl, Pending.holds_new _ _ _ _, rfl⟩
    show start.record? _ = _
    rw [show start = _ from hledger]
    exact List.getElem?_concat_length
  | append_singleton ops o ih =>
    obtain ⟨p, hrecord, hkept⟩ := ih
    obtain ⟨p', hrecord', hvisit⟩ := visit (known_since h ops) hrecord o
    rw [after_concat, taken_concat, List.any_append, List.any_cons, List.any_nil, Bool.or_false]
    exact ⟨p', hrecord', kept_visit hvisit hkept⟩

end Since

/--
**The result is given once, and then the record stays as it is.** A checkpoint was
registered, and after some operations somebody asks for its result, of either kind. If
it was asked for before, he is told so, and nothing changes. Else he is given what he
asked for: a result of this checkpoint, with all groups and in each the reports for it
that were taken since the registration. And whatever is done later, no report is taken
any more, neither from the holder of the handle nor under the id, and the record, asked
for all groups or one, for the number of acknowledgements, the latest of them or the
totals, says what the result says.
-/
theorem result_given_once (config : Config) (before : List Operation) {id trigger : Nat}
    {properties : Properties} {groups : OrderedMap VertexId Nat} {handle : Handle}
    (hregistered : (((new config).after before).perform
      (.register id trigger properties groups)).answer = .registered handle)
    (ops : List Operation) {o : Operation} (hasked : o.asked? = some handle) :
    let start := (((new config).after before).perform (.register id trigger properties groups)).ledger
    let s := (start.after ops).perform o
    ((∃ q ∈ ops, q.asked? = some handle) →
      s.answer = .refused (.alreadyFinalized id) ∧ s.ledger = start.after ops) ∧
    ((∀ q ∈ ops, q.asked? ≠ some handle) → ∃ c, s.answer = .concluded c ∧
      o.resultOf? c.gathered = some c ∧
      c.gathered.id = id ∧ c.gathered.trigger = trigger ∧ c.gathered.properties = properties ∧
      c.gathered.total = sumOf groups.values ∧
      Pending.Lists groups (start.taken (id, handle) ops) c.gathered.acknowledged.groups ∧
      c.gathered.acknowledged = .ofGroups c.gathered.acknowledged.groups ∧
      ∀ later,
        (∀ vertex report,
          ((s.ledger.after later).perform (.acknowledge handle vertex report)).answer =
            .taken false ∧
          ((s.ledger.after later).perform (.route id vertex report)).answer = .taken false) ∧
        ∃ p, (s.ledger.after later).record? handle = some p ∧
          p.allGroups = c.gathered.acknowledged.groups ∧
          (∀ vertex, p.group? vertex =
            c.gathered.acknowledged.groups.find? (fun g => g.vertex = vertex)) ∧
          p.count = c.gathered.acknowledged.count ∧
          p.latestAck? = c.gathered.acknowledged.latest.map (·.ackTime) ∧
          p.acknowledged = c.gathered.acknowledged) := by
  intro start s
  obtain ⟨p, hrecord, hkept⟩ := kept_since hregistered ops
  constructor
  · rintro ⟨q, hq, hqasked⟩
    have hdone : p.finalized = true :=
      hkept.finalized.trans (List.any_eq_true.mpr ⟨q, hq, decide_eq_true hqasked⟩)
    rcases visit_asked (r := (id, handle)) hrecord hasked with ⟨hopen, -⟩ | ⟨-, hanswer, -⟩
    · exact absurd (hdone.symm.trans hopen) Bool.true_eq_false.mp
    · rw [hkept.id] at hanswer
      exact ⟨hanswer, ledger_of_declined (congrArg Answer.isDeclined hanswer)⟩
  · intro hfirst
    have hopen : p.finalized = false := by
      refine hkept.finalized.trans (List.any_eq_false.mpr (fun q hq => ?_))
      exact fun hqasked => hfirst q hq (of_decide_eq_true hqasked)
    rcases visit_asked (r := (id, handle)) hrecord hasked with
      ⟨-, ⟨c, hanswer, hc⟩, hgiven⟩ | ⟨hdone, -⟩
    swap
    · exact absurd (hdone.symm.trans hopen) Bool.true_eq_false.mp
    have hgathered := Operation.gathered_of_resultOf? hc
    obtain ⟨hcount, -, hlatest⟩ := hkept.holds.agrees
    refine ⟨c, hanswer, ?_⟩
    rw [hgathered]
    refine ⟨hc, hkept.id, hkept.trigger, hkept.properties, Pending.total_eq hkept.holds.parallelisms,
      hkept.holds.lists, rfl, fun later => ?_⟩
    have hknown (later : List Operation) : Known (s.ledger.after later) (id, handle) := by
      have hsince := known_since hregistered (ops ++ [o] ++ later)
      rw [after_append, after_concat] at hsince
      exact hsince
    have hlater := frozen_run hknown hgiven rfl later
    refine ⟨fun vertex report => ?_, _, hlater, rfl, fun vertex => ?_, hcount, hlatest, rfl⟩
    · obtain ⟨hdirect, -, hrouted, -⟩ :=
        not_taken_of_finalized (hknown later) hlater rfl vertex report
      exact ⟨hdirect, hrouted⟩
    · exact Pending.group?_eq _ vertex

/-- Two subtasks in one group. -/
def pairCheckpoint : Operation :=
  .register 3 50 (.checkpoint .never) (.ofList [(⟨9, by decide⟩, 2)])

/-- One reports to the holder of the handle and then again to the ledger. -/
def pairReports : List Operation :=
  [.acknowledge ⟨0⟩ ⟨9, by decide⟩ ((Report.new 1 90).withSizes 5 8),
   .route 3 ⟨9, by decide⟩ (Report.new 1 95)]

/-- The first result is that of a failure, with the one report; then there is no other. -/
theorem pairCheckpoint_fails :
    let l := (((new {}).perform pairCheckpoint).ledger.after pairReports)
    (∃ c, (l.perform (.fail ⟨0⟩ 99 none)).answer = .concluded c ∧
      c.gathered.acknowledged.stateSize = 8 ∧
      c.gathered.total = 2) ∧
    ((l.perform (.fail ⟨0⟩ 99 none)).ledger.perform (.complete ⟨0⟩ none 4)).answer =
      .refused (.alreadyFinalized 3) ∧
    ((l.perform (.fail ⟨0⟩ 99 none)).ledger.perform
      (.route 3 ⟨9, by decide⟩ (Report.new 0 96))).answer = .taken false := by
  intro l
  have hregistered : ((new {}).perform pairCheckpoint).answer = .registered ⟨0⟩ := rfl
  have hfirst : ∀ q ∈ pairReports, q.asked? ≠ some ⟨0⟩ := by decide
  obtain ⟨c, hanswer, hc, -, -, -, htotal, -, -, hlater⟩ :=
    (result_given_once {} [] hregistered pairReports (o := .fail ⟨0⟩ 99 none) rfl).2 hfirst
  have hagain := (result_given_once {} [] hregistered (pairReports ++ [.fail ⟨0⟩ 99 none])
    (o := .complete ⟨0⟩ none 4) rfl).1 ⟨_, List.mem_append_right _ List.mem_cons_self, rfl⟩
  refine ⟨⟨c, hanswer, ?_, htotal⟩, ?_, ((hlater []).1 _ _).2⟩
  · obtain rfl : c = _ := Answer.concluded.inj (hanswer.symm.trans rfl)
    decide
  · exact hagain.1

end Ledger

end CheckpointLedger
