import Tenancy.Proofs.Relay.Running
import Tenancy.Proofs.Service.Session

/-!
# What is recorded

A call that changed something puts one record on its way, which says who did what to which logical
name; nothing else puts any (`Service.act_puts`). The audit is otherwise left alone: `Puts` is what
steps, moves and readers do to it.
-/

namespace Tenancy

open Metrics

/-! ## Changes and their records -/

/-- A call that changed something, and when. -/
structure Change where
  tenant : Tenant
  request : Request
  time : Timestamp

/-- The lock was taken, freed or renewed, or the message published. -/
def Response.isChange : Response → Bool
  | .acquired g => g.acquired
  | .released success => success
  | .renewed r => r.renewed
  | .published _ => true
  | .subscribed => false

def Rpc.Result.isChange : Rpc.Result → Bool
  | .acquireLock m => m.acquired
  | .releaseLock m => m.released
  | .renewLock m => m.renewed
  | .publish _ => true
  | .subscribe => false

/-- What a call of the tenant changed, going by its answer. -/
def Request.change? (t : Tenant) (r : Request) (now : Timestamp) :
    Except GatewayError Response → Option Change
  | .ok response => if response.isChange then some ⟨t, r, now⟩ else none
  | .error _ => none

/-- What a remote call of the tenant changed, going by its answer. -/
def Rpc.Call.change? (t : Tenant) (c : Rpc.Call) (now : Timestamp) :
    Except Rpc.Status Rpc.Result → Option Change
  | .ok result => if result.isChange then some ⟨t, c.request, now⟩ else none
  | .error _ => none

/-- What a step changed as a call of the gateway, direct or remote, going by its answer. -/
def Step.change? (now : Timestamp) : Step → Answer → Option Change
  | .call t r _, .called a => r.change? t now a
  | .rpc caller c _, .replied a => caller.tenant.toOption.bind fun t => c.change? t now a
  | _, _ => none

/-- The operation and the metadata that a record has for a request: names as the caller gave them,
the lease in milliseconds as a 64-bit word, the payload as its number of bytes. -/
inductive Request.Describes : Request → Audit.Operation → Json → Prop
  | acquire {key ttl} : Describes (.acquire key ttl) .acquireLock
      (.object [("key", .text key), ("ttl_ms", .int (ttl.millis % 2 ^ 64))])
  | release {key token} : Describes (.release key token) .releaseLock (.object [("key", .text key)])
  | renew {key token ttl} : Describes (.renew key token ttl) .renewLock
      (.object [("key", .text key), ("ttl_ms", .int (ttl.millis % 2 ^ 64))])
  | publish {channel payload} : Describes (.publish channel payload) .publish
      (.object [("bytes", .int payload.utf8ByteSize), ("channel", .text channel)])

/-- The record of a change: the ids of the tenant, an organization only where it has one, and what
it asked for. -/
structure Change.Recorded (c : Change) (r : Audit.Record) : Prop where
  user : r.user = c.tenant.user
  organization : r.organization = c.tenant.organization
  describes : c.request.Describes r.operation r.metadata
  time : r.recordedAt = c.time

theorem recorded_record {t : Tenant} {r : Request} {operation : Audit.Operation}
    {metadata : Json} (h : r.Describes operation metadata) (now : Timestamp) :
    (Change.mk t r now).Recorded (Audit.record t operation metadata now) := by
  refine ⟨rfl, ?_, h, rfl⟩
  obtain ⟨user, organization⟩ := t
  cases organization <;> rfl

/-! ## Samples -/

/-- No sample counts a lost record. -/
def Quiet (samples : List Sample) : Prop := ∀ operation, Sample.auditFailure operation ∉ samples

theorem Quiet.nil : Quiet [] := fun _ => List.not_mem_nil

theorem Quiet.append {a b : List Sample} (ha : Quiet a) (hb : Quiet b) : Quiet (a ++ b) :=
  fun operation h => (List.mem_append.1 h).elim (ha operation) (hb operation)

/-- Only lost records move the series that counts them. -/
theorem total_auditFailures (x : Sample) (operation : String)
    (h : ∀ lost, x ≠ .auditFailure lost) : total [x] (.auditFailures operation) = 0 := by
  have hchanges : ∀ c ∈ x.changes, c.1 ≠ .auditFailures operation := by
    intro c hc
    cases x with
    | auditFailure lost => exact absurd rfl (h lost)
    | lock =>
      simp only [Sample.changes, durationSeries, List.map_cons, List.map_map, List.mem_cons,
        List.mem_map] at hc
      rcases hc with rfl | rfl | rfl | ⟨_, -, rfl⟩ <;> simp
    | publish =>
      simp only [Sample.changes, durationSeries, List.map_cons, List.map_map, List.mem_cons,
        List.mem_map] at hc
      rcases hc with rfl | rfl | rfl | ⟨_, -, rfl⟩ <;> simp
    | _ =>
      rw [List.mem_singleton.1 hc]
      simp
  have hnone : (x.changes.filterMap fun c =>
      if c.1 = .auditFailures operation then some c.2 else none) = [] :=
    List.filterMap_eq_nil_iff.2 fun c hc => if_neg (hchanges c hc)
  rw [total, List.flatMap_singleton, hnone]
  rfl

theorem Quiet.total_eq_zero {samples : List Sample} (h : Quiet samples) (operation : String) :
    total samples (.auditFailures operation) = 0 := by
  induction samples with
  | nil => rfl
  | cons x samples ih =>
    have hx := total_auditFailures x operation fun lost heq =>
      h lost (heq ▸ List.mem_cons_self)
    have hrest := ih fun lost hmem => h lost (List.mem_cons_of_mem x hmem)
    have hsum := total_append [x] samples (.auditFailures operation)
    rw [hx, hrest] at hsum
    exact hsum

/-! ## Calls -/

/-- The reply puts a record on its way for what it changed. -/
structure Reply.Audited (t : Tenant) (r : Request) (now : Timestamp) (reply : Reply) : Prop where
  records : List.Forall₂ Change.Recorded (r.change? t now reply.answer).toList reply.effects.records
  quiet : Quiet reply.effects.samples

namespace Gateway

variable (clock : Clock) (token : String) (t : Tenant) (s : Store)

theorem quiet_lock (operation outcome : String) (seconds : Decimal) :
    Quiet [.lock operation outcome seconds] := by
  simp [Quiet]

theorem quiet_publish (success : Bool) (seconds : Decimal) : Quiet [.publish success seconds] := by
  simp [Quiet]

theorem audited_acquire (key : String) (ttl : Span) :
    (acquire clock token t s key ttl).Audited t (.acquire key ttl) clock.wall := by
  unfold acquire
  split
  · exact ⟨.nil, quiet_lock _ _ _⟩
  · exact ⟨.cons (recorded_record .acquire _) .nil, quiet_lock _ _ _⟩
  · exact ⟨.nil, quiet_lock _ _ _⟩

theorem audited_release (key : String) :
    (release clock token t s key).Audited t (.release key token) clock.wall := by
  unfold release
  split
  · exact ⟨.nil, quiet_lock _ _ _⟩
  · exact ⟨.cons (recorded_record .release _) .nil, quiet_lock _ _ _⟩
  · exact ⟨.nil, quiet_lock _ _ _⟩

theorem audited_renew (key : String) (ttl : Span) :
    (renew clock token t s key ttl).Audited t (.renew key token ttl) clock.wall := by
  unfold renew
  split
  · exact ⟨.nil, quiet_lock _ _ _⟩
  · exact ⟨.cons (recorded_record .renew _) .nil, quiet_lock _ _ _⟩
  · exact ⟨.nil, quiet_lock _ _ _⟩

theorem audited_publish (channel payload : String) :
    (publish clock t s channel payload).Audited t (.publish channel payload) clock.wall := by
  unfold publish
  split
  · exact ⟨.nil, quiet_publish _ _⟩
  · exact ⟨.cons (recorded_record .publish _) .nil, quiet_publish _ _⟩

theorem audited_subscribe (channels : List String) :
    (subscribe t s channels).Audited t (.subscribe channels) clock.wall := by
  unfold subscribe
  split
  · exact ⟨.nil, .nil⟩
  · exact ⟨.nil, .nil⟩

theorem audited_call (g : Gateway) (r : Request) :
    (g.call clock token t r s).Audited t r clock.wall := by
  have hperform : (perform clock token t r s).Audited t r clock.wall := by
    cases r with
    | acquire key ttl => exact audited_acquire clock token t s key ttl
    | release key token => exact audited_release clock token t s key
    | renew key token ttl => exact audited_renew clock token t s key ttl
    | publish channel payload => exact audited_publish clock t s channel payload
    | subscribe channels => exact audited_subscribe clock t s channels
  unfold call
  split
  · exact ⟨.nil, .nil⟩
  · exact ⟨hperform.records, hperform.quiet⟩

end Gateway

/-- A remote call changes what the call that it makes changes. -/
theorem Rpc.Call.change?_told (t : Tenant) (c : Rpc.Call) (now : Timestamp)
    (a : Except GatewayError Response) :
    c.change? t now ((a.mapError .ofError).map .ofResponse) = c.request.change? t now a := by
  rcases a with e | response
  · rfl
  · cases response <;> rfl

/-! ## Relays -/

/-- The effects put no record on its way and count no lost one. -/
structure Effects.Unaudited (e : Effects) : Prop where
  records : e.records = []
  quiet : Quiet e.samples

theorem Effects.unaudited_ofLog (log : List LogEvent) : (Effects.ofLog log).Unaudited := ⟨rfl, .nil⟩

theorem Effects.Unaudited.append {a b : Effects} (ha : a.Unaudited) (hb : b.Unaudited) :
    (a ++ b).Unaudited :=
  ⟨by rw [Effects.records_append, ha.records, hb.records]; rfl, ha.quiet.append hb.quiet⟩

namespace Relay

variable {r r' : Relay} {e : Effects}

theorem unaudited_relayMessage (delivered : Bool) :
    (Effects.ofSamples [.relayMessage delivered]).Unaudited :=
  ⟨rfl, by simp [Quiet, Effects.ofSamples]⟩

theorem unaudited_finish (r : Relay) (o : RelayOutcome) : (r.finish o).2.Unaudited := by
  unfold finish
  split
  · exact ⟨rfl, by simp [Quiet]⟩
  · exact ⟨rfl, .nil⟩

theorem unaudited_accept (r : Relay) (a : Arrival) (now : Timestamp) :
    (r.accept a now).2.Unaudited := by
  cases a <;> exact ⟨rfl, .nil⟩

theorem unaudited_handOver (h : r.handOver = some (r', e)) : e.Unaudited := by
  unfold handOver at h
  split at h
  · split at h
    · cases h
      exact (unaudited_relayMessage false).append (unaudited_finish r _)
    · split at h
      · cases h
        exact unaudited_relayMessage true
      · cases h
  · split at h
    · cases h
      exact unaudited_finish r _
    · split at h
      · cases h
        exact unaudited_finish _ _
      · cases h
  · cases h

theorem unaudited_ask? {s s' : Store} {now : Timestamp} (h : r.ask? s now = some (r', s', e)) :
    e.Unaudited := by
  unfold ask? at h
  split at h
  · rename_i heed
    cases h
    obtain ⟨o, -, ho⟩ := Option.map_eq_some_iff.1 heed
    have hfinish := r.unaudited_finish o
    rw [ho] at hfinish
    exact hfinish
  · cases h
  · split at h
    · cases h
    · cases h
      exact (Effects.unaudited_ofLog _).append (unaudited_accept r _ now)

/-- No move of a relay concerns the audit. -/
theorem unaudited_move? {s s' : Store} {now : Timestamp} (h : r.move? s now = some (r', s', e)) :
    e.Unaudited := by
  unfold move? at h
  split at h
  · exact unaudited_ask? h
  · exact unaudited_ask? h
  · obtain ⟨x, hover, hx⟩ := Option.map_eq_some_iff.1 h
    cases hx
    exact unaudited_handOver hover
  · obtain ⟨x, hover, hx⟩ := Option.map_eq_some_iff.1 h
    cases hx
    exact unaudited_handOver hover
  · cases h

theorem unaudited_start (f : Feed) (mailbox : Mailbox) (cancelled : Bool) (turns : List Nat) :
    (start f mailbox cancelled turns).2.Unaudited :=
  ⟨rfl, by simp [Quiet, start]⟩

end Relay

/-! ## The service -/

namespace Service

/-- The records of an operation that the sink refused, as the metrics count them. -/
def failures (s : Service) (operation : Audit.Operation) : Int :=
  total s.samples (.auditFailures operation.name)

/-- The audit is as before, but for the given records, which were put on their way. -/
structure Puts (s : Service) (records : List Audit.Record) (s' : Service) : Prop where
  sink : s'.sink = s.sink
  trail : s'.trail = s.trail
  refused : s'.refused = s.refused
  pending : s'.pending = s.pending ++ records
  failures : ∀ operation, s'.failures operation = s.failures operation

variable {s s' s'' : Service} {records : List Audit.Record}

/-- A service with the same audit and the same samples. -/
theorem puts_nil (hsink : s'.sink = s.sink) (htrail : s'.trail = s.trail)
    (hrefused : s'.refused = s.refused) (hpending : s'.pending = s.pending)
    (hsamples : s'.samples = s.samples) : s.Puts [] s' :=
  ⟨hsink, htrail, hrefused, hpending.trans (List.append_nil _).symm,
    fun _ => congrArg (total · _) hsamples⟩

theorem Puts.refl (s : Service) : s.Puts [] s := puts_nil rfl rfl rfl rfl rfl

theorem Puts.trans {records' : List Audit.Record} (h : s.Puts records s')
    (h' : s'.Puts records' s'') : s.Puts (records ++ records') s'' where
  sink := h'.sink.trans h.sink
  trail := h'.trail.trans h.trail
  refused := h'.refused.trans h.refused
  pending := by rw [h'.pending, h.pending, List.append_assoc]
  failures operation := (h'.failures operation).trans (h.failures operation)

theorem puts_leaving (s : Service) {e : Effects} (he : Quiet e.samples) :
    s.Puts e.records (s.leaving e) where
  sink := rfl
  trail := rfl
  refused := rfl
  pending := rfl
  failures operation := by
    have hsum := total_append s.samples e.samples (.auditFailures operation.name)
    rw [he.total_eq_zero, Int.add_zero] at hsum
    exact hsum

theorem Puts.leaving (h : s.Puts [] s') {e : Effects} (he : e.Unaudited) :
    s.Puts [] (s'.leaving e) := by
  have hboth := h.trans (s'.puts_leaving he.quiet)
  rw [he.records] at hboth
  exact hboth

theorem puts_moveAt? {i : Nat} (h : s.moveAt? i = some s') : s.Puts [] s' := by
  obtain ⟨l₁, t, l₂, r, e, -, -, hmove, heq⟩ := moveAt?_eq_some h
  rw [heq]
  refine Puts.leaving ?_ (Relay.unaudited_move? hmove)
  exact puts_nil rfl rfl rfl rfl rfl

theorem puts_ask (s : Service) (id left : Nat) : s.Puts [] (s.ask id left).2.2 := by
  unfold ask
  split
  · exact puts_nil rfl rfl rfl rfl rfl
  · refine Puts.leaving ?_ (Effects.unaudited_ofLog _)
    exact puts_nil rfl rfl rfl rfl rfl

theorem puts_drainIn (s : Service) (id fuel left : Nat) (limit : Option Nat) :
    s.Puts [] (drainIn id fuel left limit s).2.2 :=
  drainIn_keeps (p := s.Puts []) id (fun left h => h.trans (puts_ask _ id left)) fuel left limit
    (.refl s)

theorem puts_runSweepers (s : Service) : s.Puts [] s.runSweepers := puts_nil rfl rfl rfl rfl rfl

theorem puts_picked? {handle : Nat} {x : RelayItem} (h : s.picked? handle = some (x, s')) :
    s.Puts [] s' := by
  obtain ⟨y, -, hy⟩ := Option.map_eq_some_iff.1 h
  cases hy
  exact puts_nil rfl rfl rfl rfl rfl

/-- After a call its records are on their way. -/
theorem puts_after (s : Service) (store : Store) {e : Effects} (he : Quiet e.samples)
    (feed : Option Feed) (given : Supply) : s.Puts e.records (s.after store e feed given) := by
  have hstore : s.Puts [] { s with store } := puts_nil rfl rfl rfl rfl rfl
  have hleft := hstore.trans (puts_leaving { s with store } he)
  cases feed with
  | none => exact hleft
  | some f =>
    have hstarted := (Relay.unaudited_start f
      { capacity := max s.gateway.settings.relayBuffer 1 } s.isShutDown given.turns)
    refine (List.append_nil e.records) ▸ hleft.trans (Puts.leaving ?_ hstarted)
    exact puts_nil rfl rfl rfl rfl rfl

end Service

/-- All but a reader that reads until nothing is left, with everything at rest in between. -/
def Step.IsSingle : Step → Bool
  | .read _ _ => false
  | _ => true

namespace Service

/-- A step puts one record on its way for a call that changed something, and none otherwise. -/
theorem act_puts (s : Service) {x : Step} (hx : x.IsSingle = true) :
    ∃ records, List.Forall₂ Change.Recorded
      (x.change? s.clock.wall (s.act x).1).toList records ∧ s.Puts records (s.act x).2 := by
  cases x with
  | call t r given =>
    have haudited := Gateway.audited_call s.clock given.fresh t s.store s.gateway r
    exact ⟨_, haudited.records, s.puts_after _ haudited.quiet _ given⟩
  | rpc caller c given =>
    rw [act, Rpc.perform, Step.change?]
    cases htenant : caller.tenant with
    | error status => exact ⟨[], .nil, s.puts_after s.store (e := {}) .nil none given⟩
    | ok t =>
      have haudited := Gateway.audited_call s.clock given.fresh t s.store s.gateway c.request
      refine ⟨_, ?_, s.puts_after _ haudited.quiet _ given⟩
      have hchange := c.change?_told t s.clock.wall
        (s.gateway.call s.clock given.fresh t c.request s.store).answer
      simp only [Except.toOption, Option.bind_some, hchange]
      exact haudited.records
  | drain id limit =>
    exact ⟨[], .nil, puts_drainIn s id (s.store.waiting id + 1) stint limit⟩
  | read handle limit => cases hx
  | startSweeper interval =>
    refine ⟨[], .nil, Puts.leaving ?_ (Effects.unaudited_ofLog _)⟩
    exact puts_nil rfl rfl rfl rfl rfl
  | stopSweepers =>
    refine ⟨[], .nil, Puts.leaving ?_ (Effects.unaudited_ofLog _)⟩
    exact puts_nil rfl rfl rfl rfl rfl
  | closeStore =>
    refine ⟨[], .nil, Puts.leaving ?_ (Effects.unaudited_ofLog _)⟩
    exact puts_nil rfl rfl rfl rfl rfl
  | relayFeed f how =>
    refine ⟨[], .nil, Puts.leaving ?_ (Relay.unaudited_start f how.mailbox how.isCancelled how.turns)⟩
    exact puts_nil rfl rfl rfl rfl rfl
  | relayChannels t channels how =>
    rw [act]
    split
    · refine ⟨[], .nil, Puts.leaving ?_ (Relay.unaudited_start _ _ _ _)⟩
      exact puts_nil rfl rfl rfl rfl rfl
    · refine ⟨[], .nil, Puts.leaving ?_ (Effects.unaudited_ofLog _)⟩
      exact puts_nil rfl rfl rfl rfl rfl
  | outcome handle =>
    rw [act_outcome]
    refine ⟨[], .nil, ?_⟩
    split
    · exact puts_nil rfl rfl rfl rfl rfl
    · exact .refl s
  | _ => exact ⟨[], .nil, puts_nil rfl rfl rfl rfl rfl⟩

end Service

end Tenancy
