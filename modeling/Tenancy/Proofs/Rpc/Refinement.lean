import Tenancy.Proofs.Rpc.Caller
import Tenancy.Proofs.Service.Turn
import Tenancy.Service.Step
import Tenancy.Token

/-!
# Remote calls are gateway calls

A remote call is the gateway call that it asks for, under the tenant that its caller is: it leaves
the service as that call does and is answered with what that call answers
(`Service.remote_call_refines`). A call whose caller cannot be told leaves the service alone. The
relations `Call.Asks`, `Tells` and `TellsItem` say what is the same on both sides, and `TellsTime` how
times are told.
-/

namespace Tenancy.Rpc

/-! ## What is asked -/

/-- The request that a call makes: the same names and texts, and a lease of the given number of
milliseconds, of none where the number is negative. -/
inductive Call.Asks : Call → Request → Prop
  | acquire {key ms ttl} : (ttl.ns : Int) = max ms.toInt 0 * 1000000 →
      Asks (.acquireLock ⟨key, ms⟩) (.acquire key ttl)
  | release {key token} : Asks (.releaseLock ⟨key, token⟩) (.release key token)
  | renew {key token ms ttl} : (ttl.ns : Int) = max ms.toInt 0 * 1000000 →
      Asks (.renewLock ⟨key, token, ms⟩) (.renew key token ttl)
  | publish {channel message} : Asks (.publish ⟨channel, message⟩) (.publish channel message)
  | subscribe {channels} : Asks (.subscribe ⟨channels⟩) (.subscribe channels)

theorem ns_leaseOfMillis (ms : Int64) :
    ((leaseOfMillis ms).ns : Int) = max ms.toInt 0 * 1000000 := by
  show ((ms.toInt.toNat * 1000000 : Nat) : Int) = _
  rw [Int.natCast_mul, Int.ofNat_toNat]
  rfl

theorem Call.asks_request (c : Call) : c.Asks c.request := by
  cases c with
  | acquireLock m => exact .acquire (ns_leaseOfMillis m.ttlMs)
  | releaseLock => exact .release
  | renewLock m => exact .renew (ns_leaseOfMillis m.ttlMs)
  | publish => exact .publish
  | subscribe => exact .subscribe

/-! ## What is answered -/

/-- The status of a gateway error: its message, and a code for its class. -/
structure Status.Tells (status : Status) (e : GatewayError) : Prop where
  message : status.message = e.message
  unauthenticated : status.code = .unauthenticated ↔ e.code = .unauthorized
  permissionDenied : status.code = .permissionDenied ↔ e.code = .forbidden
  invalidArgument : status.code = .invalidArgument ↔
    e.code = .invalidInput ∨ e.code = .missingField ∨ e.code = .invalidRange
  internal : status.code = .internal ↔ e.code = .storeError ∨ e.code = .internalError

theorem Status.tells_ofError (e : GatewayError) : (Status.ofError e).Tells e := by
  obtain ⟨code, message⟩ := e
  cases code <;> constructor <;> simp [Status.ofError, StatusCode.ofCode]

/-- A time in whole milliseconds from 1970 on, rounded down, as a signed word. -/
def TellsTime (t : Timestamp) (ms : Int64) : Prop := ms = .ofInt (t.ns / 1000000)

theorem tellsTime_millisOfTime (t : Timestamp) : TellsTime t (millisOfTime t) := by
  rw [TellsTime, millisOfTime, Timestamp.millis_eq]

/-- The answer of a call in the words of a remote call. The token of a lock is never empty, and is
there together with the end of the lease where the lock was taken. -/
inductive Tells : Except GatewayError Response → Except Status Result → Prop
  | error {e status} : status.Tells e → Tells (.error e) (.error status)
  | acquired {token ends ms} : token ≠ "" → TellsTime ends ms →
      Tells (.ok (.acquired ⟨true, some token, some ends⟩))
        (.ok (.acquireLock ⟨true, token, some ms⟩))
  | contended : Tells (.ok (.acquired ⟨false, none, none⟩)) (.ok (.acquireLock ⟨false, "", none⟩))
  | released {success} : Tells (.ok (.released success)) (.ok (.releaseLock ⟨success⟩))
  | renewed {ends ms} : TellsTime ends ms →
      Tells (.ok (.renewed ⟨true, some ends⟩)) (.ok (.renewLock ⟨true, some ms⟩))
  | notRenewed : Tells (.ok (.renewed ⟨false, none⟩)) (.ok (.renewLock ⟨false, none⟩))
  | published {n : Nat} {count} : count.toInt = min (n : Int) Int64.maxValue.toInt →
      Tells (.ok (.published n)) (.ok (.publish ⟨count⟩))
  | subscribed : Tells (.ok .subscribed) (.ok .subscribe)

/-- A taken lock comes with a token and the end of its lease, and nothing else does. -/
theorem Tells.acquired_iff {a : Except GatewayError Response} {m : AcquireLockResponse}
    (h : Tells a (.ok (.acquireLock m))) :
    (m.ownerToken ≠ "" ↔ m.acquired = true) ∧ (m.expiresAt.isSome ↔ m.acquired = true) := by
  cases h with
  | acquired htoken => simp [htoken]
  | contended => simp

theorem toInt_countWord (n : Nat) : (countWord n).toInt = min (n : Int) Int64.maxValue.toInt := by
  have hmax : Int64.maxValue.toInt = 2 ^ 63 - 1 := by decide
  have hsize : (UInt64.size / 2 - 1 : Nat) = 2 ^ 63 - 1 := by decide
  rw [hmax, countWord, hsize, Int64.toInt_ofNat_of_lt (by omega)]
  omega

/-- The answer to a remote call, from the answer of the gateway. -/
def replyTo (a : Except GatewayError Response) : Except Status Result :=
  (a.mapError .ofError).map .ofResponse

theorem tells_error (e : GatewayError) : Tells (.error e) (replyTo (.error e)) :=
  .error (Status.tells_ofError e)

section

variable (clock : Clock) {fresh : String} (hfresh : fresh ≠ "") (t : Tenant) (s : Store)

include hfresh

theorem tells_acquire (key : String) (ttl : Span) :
    Tells (Gateway.acquire clock fresh t s key ttl).answer
      (replyTo (Gateway.acquire clock fresh t s key ttl).answer) := by
  unfold Gateway.acquire
  split
  · exact tells_error _
  · exact .acquired hfresh (tellsTime_millisOfTime _)
  · exact .contended

omit hfresh in
theorem tells_release (token key : String) :
    Tells (Gateway.release clock token t s key).answer
      (replyTo (Gateway.release clock token t s key).answer) := by
  unfold Gateway.release
  split
  · exact tells_error _
  · exact .released
  · exact .released

omit hfresh in
theorem tells_renew (token key : String) (ttl : Span) :
    Tells (Gateway.renew clock token t s key ttl).answer
      (replyTo (Gateway.renew clock token t s key ttl).answer) := by
  unfold Gateway.renew
  split
  · exact tells_error _
  · exact .renewed (tellsTime_millisOfTime _)
  · exact .notRenewed

omit hfresh in
theorem tells_publish (channel payload : String) :
    Tells (Gateway.publish clock t s channel payload).answer
      (replyTo (Gateway.publish clock t s channel payload).answer) := by
  unfold Gateway.publish
  split
  · exact tells_error _
  · exact .published (toInt_countWord _)

omit hfresh in
theorem tells_subscribe (channels : List String) :
    Tells (Gateway.subscribe t s channels).answer
      (replyTo (Gateway.subscribe t s channels).answer) := by
  unfold Gateway.subscribe
  split
  · exact tells_error _
  · exact .subscribed

theorem tells_call (g : Gateway) (r : Request) :
    Tells (g.call clock fresh t r s).answer (replyTo (g.call clock fresh t r s).answer) := by
  unfold Gateway.call
  split
  · exact tells_error _
  · cases r with
    | acquire key ttl => exact tells_acquire clock hfresh t s key ttl
    | release key token => exact tells_release clock t s token key
    | renew key token ttl => exact tells_renew clock t s token key ttl
    | publish channel payload => exact tells_publish clock t s channel payload
    | subscribe channels => exact tells_subscribe t s channels

end

/-! ## What is streamed -/

/-- An item of a relay as an item of a remote stream. -/
inductive TellsItem : RelayItem → Except Status SubscribeMessage → Prop
  | message {m ms} : TellsTime m.time ms → TellsItem (.message m) (.ok ⟨m.channel, m.payload, ms⟩)
  | failure {e status} : status.Tells e → TellsItem (.failure e) (.error status)

theorem tellsItem_itemOf (x : RelayItem) : TellsItem x (itemOf x) := by
  cases x with
  | message m => exact .message (tellsTime_millisOfTime m.time)
  | failure e => exact .failure (Status.tells_ofError e)

end Tenancy.Rpc

namespace Tenancy.Service

open Rpc

/-- A stream yields an item in every turn in which its relay gives one: that one, in other words. -/
theorem yielded?_eq (s : Service) (handle : Nat) (x : Turn) :
    s.yielded? handle x = (s.taken? handle x).map itemOf := by
  cases x with
  | take other =>
    rw [yielded?, taken?]
    by_cases hread : other = handle ∧ s.hasReader handle = true
    · rw [if_pos hread, if_pos hread, picked?]
      cases s.relay? handle with
      | none => rfl
      | some r => simp [next?, Function.comp_def]
    · rw [if_neg hread, if_neg hread, Option.map_none]
  | _ => rfl

/-- A stream yields the items of its relay, one for one and in their order. -/
theorem streamed_tells (handle : Nat) (xs : List Turn) (s : Service) :
    List.Forall₂ TellsItem (s.taken handle xs) (s.streamed handle xs) := by
  induction xs generalizing s with
  | nil => exact .nil
  | cons x xs ih =>
    rw [taken, streamed, yielded?_eq]
    cases s.taken? handle x with
    | none => exact ih _
    | some item => exact .cons (tellsItem_itemOf item) (ih _)

/-! ## Remote calls -/

theorem after_self (s : Service) (given : Supply) : s.after s.store {} none given = s := by
  simp [after, leaving]

/-- A caller that is turned away leaves no trace, not even in the log. -/
theorem act_rpc_of_error {s : Service} {caller : Caller} {status : Status}
    (h : caller.Identifies (.error status)) (c : Call) (given : Supply) :
    s.act (.rpc caller c given) = (.replied (.error status), s) := by
  simp only [act, perform, h.tenant_eq, after_self]

theorem act_rpc_of_ok {s : Service} {caller : Caller} {t : Tenant}
    (h : caller.Identifies (.ok t)) (c : Call) (given : Supply) :
    s.act (.rpc caller c given) =
      (.replied (replyTo (s.gateway.call s.clock given.fresh t c.request s.store).answer),
        (s.act (.call t c.request given)).2) := by
  simp only [act, perform, h.tenant_eq]
  rfl

theorem ofBits_ne_empty (bits : Nat) : Token.ofBits bits ≠ "" := by
  intro h
  have hlist := congrArg String.toList h
  simp [Token.ofBits] at hlist

/-- A remote call whose caller is turned away is answered with the reason, and that is all. Any other
one leaves the service, with its store, its hub, its audit records, its metrics and its log, as the
gateway call that it asks for leaves it, and tells what that call answers. From then on its stream
yields what the relay behind it gives. -/
theorem remote_call_refines (s : Service) (caller : Caller) (c : Call) (bits handle : Nat)
    (turns : List Nat) :
    let given : Supply := ⟨Token.ofBits bits, handle, turns⟩
    ∃ who, caller.Identifies who ∧
      match who with
      | .error status => s.act (.rpc caller c given) = (.replied (.error status), s)
      | .ok t =>
        ∃ r a b s', c.Asks r ∧ s.act (.call t r given) = (.called a, s') ∧
          s.act (.rpc caller c given) = (.replied b, s') ∧ Tells a b ∧
          ∀ later : List Turn,
            List.Forall₂ TellsItem (s'.taken handle later) (s'.streamed handle later) := by
  intro given
  refine ⟨caller.tenant, caller.identifies_tenant, ?_⟩
  have hwho := caller.identifies_tenant
  cases htenant : caller.tenant with
  | error status => exact act_rpc_of_error (htenant ▸ hwho) c given
  | ok t =>
    exact ⟨c.request, _, _, _, c.asks_request, rfl, act_rpc_of_ok (htenant ▸ hwho) c given,
      tells_call s.clock (ofBits_ne_empty bits) t s.store s.gateway c.request,
      fun later => streamed_tells handle later _⟩

end Tenancy.Service
