import Tenancy.Proofs.Store.Footprint
import Tenancy.Service.Step

/-!
# Traces of calls

A call that is refused, fails, or finds the lock held by somebody else leaves no trace: the store,
the relays and the way of audit records are as before. Any other call changes only the keys and
channels that it names (`Service.refusals_leave_no_trace`). Nothing is asked of the service: it
may be closed or cut off, and may hold expired entries.
-/

namespace Tenancy

/-- The physical keys that a request of the tenant names. -/
def Request.keys (t : Tenant) : Request → List String
  | .acquire key _ | .release key _ | .renew key _ _ => [t.isolate key]
  | .publish _ _ | .subscribe _ => []

/-- The physical channels that a request of the tenant names. -/
def Request.channels (t : Tenant) : Request → List String
  | .acquire _ _ | .release _ _ | .renew _ _ _ => []
  | .publish channel _ => [t.isolate channel]
  | .subscribe names => t.channels names

/-- The lock was not taken, freed or renewed. -/
def Response.isDenial : Response → Bool
  | .acquired g => !g.acquired
  | .released success => !success
  | .renewed r => !r.renewed
  | .published _ | .subscribed => false

/-- The answer is an error, or says that nothing was done. -/
def isRefusal : Except GatewayError Response → Bool
  | .error _ => true
  | .ok r => r.isDenial

/-- The reply leaves nothing behind but log and metrics. -/
structure Reply.Traceless (s : Store) (r : Reply) : Prop where
  store : r.store = s
  records : r.effects.records = []
  feed : r.feed = none

/-- A refusal leaves no trace, and what is done is done to the given keys and channels. -/
structure Reply.Accounted (s : Store) (keys channels : List String) (r : Reply) : Prop where
  traceless : isRefusal r.answer = true → r.Traceless s
  within : s.Within keys channels r.store

namespace Gateway

variable (clock : Clock) (token : String) (t : Tenant) (s : Store)

theorem accounted_acquire (key : String) (ttl : Span) :
    (acquire clock token t s key ttl).Accounted s [t.isolate key] [] := by
  have h := Lock.guarded_acquire (.ofLogical t key) token clock.now s ttl
  unfold acquire
  generalize Lock.acquire (.ofLogical t key) token clock.now s ttl = x at h
  obtain ⟨e | b, s'⟩ := x
  · exact ⟨fun _ => ⟨h.kept (by simp), rfl, rfl⟩, h.within⟩
  cases b with
  | true => exact ⟨(nomatch ·), h.within⟩
  | false => exact ⟨fun _ => ⟨h.kept (by simp), rfl, rfl⟩, h.within⟩

theorem accounted_release (key : String) :
    (release clock token t s key).Accounted s [t.isolate key] [] := by
  have h := Lock.guarded_release (.ofLogical t key) token clock.now s
  unfold release
  generalize Lock.release (.ofLogical t key) token clock.now s = x at h
  obtain ⟨e | b, s'⟩ := x
  · exact ⟨fun _ => ⟨h.kept (by simp), rfl, rfl⟩, h.within⟩
  cases b with
  | true => exact ⟨(nomatch ·), h.within⟩
  | false => exact ⟨fun _ => ⟨h.kept (by simp), rfl, rfl⟩, h.within⟩

theorem accounted_renew (key : String) (ttl : Span) :
    (renew clock token t s key ttl).Accounted s [t.isolate key] [] := by
  have h := Lock.guarded_renew (.ofLogical t key) token clock.now s ttl
  unfold renew
  generalize Lock.renew (.ofLogical t key) token clock.now s ttl = x at h
  obtain ⟨e | b, s'⟩ := x
  · exact ⟨fun _ => ⟨h.kept (by simp), rfl, rfl⟩, h.within⟩
  cases b with
  | true => exact ⟨(nomatch ·), h.within⟩
  | false => exact ⟨fun _ => ⟨h.kept (by simp), rfl, rfl⟩, h.within⟩

theorem accounted_publish (channel payload : String) :
    (publish clock t s channel payload).Accounted s [] [t.isolate channel] := by
  have h := s.routed_publish (t.isolate channel) payload
  unfold publish
  generalize s.publish (t.isolate channel) payload = x at h
  obtain ⟨e | n, s'⟩ := x
  · exact ⟨fun _ => ⟨h.kept e rfl, rfl, rfl⟩, h.within⟩
  · exact ⟨(nomatch ·), h.within⟩

theorem accounted_subscribe (names : List String) :
    (subscribe t s names).Accounted s [] (t.channels names) := by
  have h := s.routed_subscribe (t.channels names)
  unfold subscribe Feed.subscribe
  generalize s.subscribe (t.channels names) = x at h
  obtain ⟨e | id, s'⟩ := x
  · exact ⟨fun _ => ⟨h.kept e rfl, rfl, rfl⟩, h.within⟩
  · exact ⟨(nomatch ·), h.within⟩

theorem accounted_perform (r : Request) :
    (perform clock token t r s).Accounted s (r.keys t) (r.channels t) := by
  cases r with
  | acquire key ttl => exact accounted_acquire clock token t s key ttl
  | release key token => exact accounted_release clock token t s key
  | renew key token ttl => exact accounted_renew clock token t s key ttl
  | publish channel payload => exact accounted_publish clock t s channel payload
  | subscribe names => exact accounted_subscribe t s names

theorem accounted_call (g : Gateway) (r : Request) :
    (g.call clock token t r s).Accounted s (r.keys t) (r.channels t) := by
  unfold call
  split
  · exact ⟨fun _ => ⟨rfl, rfl, rfl⟩, .refl ..⟩
  · obtain ⟨htraceless, hwithin⟩ := accounted_perform clock token t s r
    refine ⟨fun hr => ?_, hwithin⟩
    obtain ⟨hstore, hrecords, hfeed⟩ := htraceless hr
    refine ⟨hstore, ?_, hfeed⟩
    rw [Effects.records_append, hrecords]
    rfl

end Gateway

namespace Service

theorem store_after (s : Service) (store : Store) (effects : Effects) (feed : Option Feed)
    (given : Supply) : (s.after store effects feed given).store = store := by
  cases feed <;> rfl

/-- Every call is answered. Where the answer is an error or says that nothing was done, the store is
what it was, no relay was started and no audit record is on its way or was taken. Whatever the
answer is, keys and channels that the request does not name are as they were. -/
theorem refusals_leave_no_trace (s : Service) (t : Tenant) (r : Request) (given : Supply) :
    ∃ a s', s.act (.call t r given) = (.called a, s') ∧
      (isRefusal a = true →
        s'.store = s.store ∧ s'.relays = s.relays ∧
          s'.pending = s.pending ∧ s'.trail = s.trail ∧ s'.refused = s.refused) ∧
      s.store.Within (r.keys t) (r.channels t) s'.store := by
  obtain ⟨htraceless, hwithin⟩ := Gateway.accounted_call s.clock given.fresh t s.store s.gateway r
  refine ⟨_, _, rfl, fun hr => ?_, ?_⟩
  · obtain ⟨hstore, hrecords, hfeed⟩ := htraceless hr
    rw [hstore, hfeed]
    refine ⟨rfl, rfl, ?_, rfl, rfl⟩
    have hpending : (s.after s.store (s.gateway.call s.clock given.fresh t r s.store).effects none
        given).pending = s.pending ++ (s.gateway.call s.clock given.fresh t r s.store).effects.records :=
      rfl
    rw [hpending, hrecords, List.append_nil]
  · rw [store_after]
    exact hwithin

/-- The lease of Ann has run out and nobody has swept it away: its token frees nothing, and the
entry stays held as it is. -/
theorem refusals_leave_no_trace_expired :
    let ann : Tenant := ⟨"ann", none⟩
    let s : Service := {
      clock := ⟨⟨10⟩, default⟩
      store := { entries := [(ann.isolate "job", ⟨"A", some ⟨5⟩⟩)], hub := { capacity := 1 } } }
    ∃ s', s.act (.call ann (.release "job" "A") {}) = (.called (.ok (.released false)), s') ∧
      s'.store = s.store ∧ s'.pending = [] ∧ s'.trail = [] := by
  intro ann s
  obtain ⟨a, s', hact, htrace, -⟩ := refusals_leave_no_trace s ann (.release "job" "A") {}
  have hanswer : (s.act (.call ann (.release "job" "A") {})).1 = .called (.ok (.released false)) :=
    rfl
  rw [hact] at hanswer
  cases hanswer
  obtain ⟨hstore, -, hpending, htrail, -⟩ := htrace rfl
  exact ⟨s', hact, hstore, hpending, htrail⟩

end Service

end Tenancy
