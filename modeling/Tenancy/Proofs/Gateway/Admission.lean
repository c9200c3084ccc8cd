import Mathlib.Data.Finset.Card
import Tenancy.Proofs.Gateway.Call
import Tenancy.Proofs.Gateway.Names
import Tenancy.Store.Call

/-!
# Before the store and in it

Nine checks stand in front of the store, in one order for all requests (`Check.inOrder`); a request
passes those that are about arguments it does not have. The first complaint is the answer, whatever
the store is like (`Gateway.call_of_complaint`). A call without complaints is one call of the store,
`Request.storeCall`, and the reply depends on the store by its answer alone
(`Gateway.perform_congr`).
-/

namespace Tenancy

/-! ## Checks -/

namespace Request

/-- The key of a request about a lock. -/
def key? : Request → Option String
  | .acquire key _ | .release key _ | .renew key _ _ => some key
  | .publish _ _ | .subscribe _ => none

/-- The channel of a message to publish. -/
def channel? : Request → Option String
  | .publish channel _ => some channel
  | .acquire _ _ | .release _ _ | .renew _ _ _ | .subscribe _ => none

/-- The channels of a subscription. -/
def channels? : Request → Option (List String)
  | .subscribe names => some names
  | .acquire _ _ | .release _ _ | .renew _ _ _ | .publish _ _ => none

/-- The token of one who says to hold the lock. -/
def token? : Request → Option String
  | .release _ token | .renew _ token _ => some token
  | .acquire _ _ | .publish _ _ | .subscribe _ => none

/-- The length of the lease that is asked for. -/
def ttl? : Request → Option Span
  | .acquire _ ttl | .renew _ _ ttl => some ttl
  | .release _ _ | .publish _ _ | .subscribe _ => none

end Request

/-- What a call is checked for. -/
inductive Check where
  | user
  | validator
  | key
  | channel
  | channels
  | channelNames
  | channelCount
  | token
  | lease
  deriving DecidableEq, Repr, Inhabited

namespace Check

def inOrder : List Check :=
  [.user, .validator, .key, .channel, .channels, .channelNames, .channelCount, .token, .lease]

/-- What a check has to say against a call. -/
def complaint? (g : Gateway) (t : Tenant) (r : Request) : Check → Option GatewayError
  | .user => if t.user = "" then some ⟨.unauthorized, "User id is required"⟩ else none
  | .validator =>
    match g.validator.check t.user with
    | .error e => some (.ofAuth e)
    | .ok () => none
  | .key => if r.key? = some "" then some (.missingField "key") else none
  | .channel => if r.channel? = some "" then some (.missingField "channel") else none
  | .channels => if r.channels? = some [] then some (.missingField "channels") else none
  | .channelNames =>
    if r.channels?.any fun names => "" ∈ names then
      some ⟨.invalidInput, "Invalid value for 'channels': channel names must not be empty"⟩
    else none
  | .channelCount =>
    if r.channels?.any fun names => g.settings.maxChannels < names.toFinset.card then
      some (.invalidRange "channels" "1" (String.ofList (Text.decimal g.settings.maxChannels)))
    else none
  | .token => if r.token? = some "" then some (.missingField "owner_token") else none
  | .lease =>
    if r.ttl?.any fun ttl => ¬ (0 < ttl.ns ∧ ttl ≤ g.settings.maxLockTtl) then
      some (.invalidRange "ttl_ms" "1" (String.ofList (Text.decimal g.settings.maxLockTtl.millis)))
    else none

end Check

namespace Gateway

variable {g : Gateway} {t : Tenant} {r : Request} {e : GatewayError}

/-- The first complaint about a call. -/
def complaint? (g : Gateway) (t : Tenant) (r : Request) : Option GatewayError :=
  Check.inOrder.findSome? (Check.complaint? g t r)

/-- What becomes of a call with and without a complaint. -/
def verdict : Option GatewayError → Except GatewayError Unit
  | some e => .error e
  | none => .ok ()

theorem verdict_or (a b : Option GatewayError) :
    verdict (a.or b) = (do verdict a; verdict b) := by
  cases a <;> rfl

theorem findSome?_cons_eq_or {α β : Type} (f : α → Option β) (x : α) (xs : List α) :
    (x :: xs).findSome? f = (f x).or (xs.findSome? f) := by
  rw [List.findSome?_cons]
  cases f x <;> rfl

theorem checkPresent_eq (field value : String) :
    (checkPresent field value).mapError .ofValidation =
      verdict (if value = "" then some (.missingField field) else none) := by
  unfold checkPresent
  split <;> rfl

theorem checkTtl_eq (ttl max : Span) :
    (checkTtl ttl max).mapError .ofValidation = verdict
      (if ¬ (0 < ttl.ns ∧ ttl ≤ max) then
        some (.invalidRange "ttl_ms" "1" (String.ofList (Text.decimal max.millis))) else none) := by
  by_cases h : 0 < ttl.ns ∧ ttl ≤ max
  · rw [checkTtl_eq_ok_iff.2 h, if_neg (not_not_intro h)]
    rfl
  · have hbad : ttl.ns = 0 ∨ max < ttl := by
      rw [Span.le_def] at h
      rw [Span.lt_def]
      omega
    rw [checkTtl, if_pos hbad, if_pos h]
    rfl

theorem checkChannels_eq (names : List String) (limit : Nat) :
    checkChannels names limit = verdict
      ((if names = [] then some (.missingField "channels") else none).or
        ((if "" ∈ names then
            some ⟨.invalidInput, "Invalid value for 'channels': channel names must not be empty"⟩
          else none).or
          (if limit < names.toFinset.card then
            some (.invalidRange "channels" "1" (String.ofList (Text.decimal limit))) else none))) := by
  unfold checkChannels
  simp only [List.contains_iff_mem, hasMoreThan_iff]
  split
  · rfl
  split
  · rfl
  split <;> rfl

/-- The checks behind those of the user. -/
theorem check_eq (g : Gateway) (t : Tenant) (r : Request) :
    r.check g.settings = verdict ((Check.inOrder.drop 2).findSome? (Check.complaint? g t r)) := by
  cases r <;>
    simp only [Request.check, checkPresent_eq, checkTtl_eq, checkChannels_eq, ← verdict_or,
      Check.inOrder, List.drop_succ_cons, List.drop_zero, findSome?_cons_eq_or, List.findSome?_nil,
      Check.complaint?, Request.key?, Request.channel?, Request.channels?, Request.token?,
      Request.ttl?, Option.any_some, Option.any_none, Option.some.injEq, decide_eq_true_eq,
      reduceCtorEq, Bool.false_eq_true, if_false, Option.none_or, Option.or_none]

/-- The door goes through the checks in their order. -/
theorem admission_eq (g : Gateway) (t : Tenant) (r : Request) :
    (g.admission t r).1 = verdict (g.complaint? t r) := by
  have hsplit : g.complaint? t r =
      (Check.complaint? g t r .user).or ((Check.complaint? g t r .validator).or
        ((Check.inOrder.drop 2).findSome? (Check.complaint? g t r))) := by
    rw [complaint?, Check.inOrder, findSome?_cons_eq_or, findSome?_cons_eq_or]
    rfl
  rw [hsplit, admission, authorize]
  by_cases hu : t.user = ""
  · simp only [hu, if_true, Check.complaint?]
    rfl
  · simp only [hu, if_false, Check.complaint?, Option.none_or]
    cases hv : g.validator.check t.user with
    | error e => rfl
    | ok u => exact check_eq g t r

theorem admits_iff : g.Admits t r ↔ g.complaint? t r = none := by
  rw [Admits, admission_eq]
  cases g.complaint? t r with
  | none => exact ⟨fun _ => rfl, fun _ => rfl⟩
  | some e => simp [verdict]

/-- Complaints never look like those of the store. -/
theorem code_of_complaint (h : g.complaint? t r = some e) : e.code ≠ .storeError := by
  obtain ⟨check, -, hc⟩ := List.exists_of_findSome?_eq_some h
  cases check with
  | validator =>
    rw [Check.complaint?] at hc
    split at hc
    · rename_i err _
      cases hc
      cases err <;> exact nofun
    · cases hc
  | _ =>
    obtain ⟨-, hc⟩ := Option.ite_none_right_eq_some.1 hc
    cases hc
    exact nofun

/-- A complaint is the reply, and the store is left alone. -/
theorem call_of_complaint (h : g.complaint? t r = some e) (clock : Clock) (fresh : String)
    (s : Store) :
    g.call clock fresh t r s =
      { answer := .error e, store := s, effects := .ofLog (g.admission t r).2 } := by
  have hrefused : (g.admission t r).1 = .error e := by rw [admission_eq, h]; rfl
  unfold call
  split
  · rename_i e' log he
    rw [he] at hrefused
    cases hrefused
    rw [he]
  · rename_i log he
    rw [he] at hrefused
    cases hrefused

theorem call_of_no_complaint (h : g.complaint? t r = none) (clock : Clock) (fresh : String)
    (s : Store) :
    g.call clock fresh t r s =
      { perform clock fresh t r s with
        effects := .ofLog (g.admission t r).2 ++ (perform clock fresh t r s).effects } := by
  have hadmits : (g.admission t r).1 = .ok () := admits_iff.2 h
  unfold call
  split
  · rename_i e log he
    rw [he] at hadmits
    cases hadmits
  · rename_i log he
    rw [he]

end Gateway

/-! ## The call of the store -/

/-- The call of the store that an admitted request makes. -/
def Request.storeCall (t : Tenant) (fresh : String) : Request → StoreCall
  | .acquire key ttl => .setIfAbsent (t.isolate key) fresh (some ttl)
  | .release key token => .compareAndDelete (t.isolate key) token
  | .renew key token ttl => .compareAndExpire (t.isolate key) token ttl
  | .publish channel payload => .publish (t.isolate channel) payload
  | .subscribe names => .subscribe (t.channels names)

/-- All of a reply but the store. -/
def Reply.told (r : Reply) : Except GatewayError Response × Effects × Option Feed :=
  (r.answer, r.effects, r.feed)

/-- What a caller is told of the answer of a store call: an error is passed on with its text. -/
def Concluded {α : Type} (a : Except StoreError α) (answer : Except GatewayError Response) : Prop :=
  match a with
  | .error e => answer = .error ⟨.storeError, e.message⟩
  | .ok _ => ∃ response, answer = .ok response

theorem concluded_map {α β : Type} (f : α → β) (a : Except StoreError α)
    (answer : Except GatewayError Response) : Concluded (a.map f) answer ↔ Concluded a answer := by
  cases a <;> rfl

/-- The work is the one call `op` of the store: what it leaves in the store is what `op` leaves, and
the rest of the reply is made of the answer of `op`, whatever that may be. -/
def Store.OneCall {α : Type} (op : Store → Except StoreError α × Store) (work : Store → Reply) :
    Prop :=
  ∃ told : Except StoreError α → Except GatewayError Response × Effects × Option Feed,
    (∀ a, Concluded a (told a).1) ∧
      ∀ s, (work s).told = told (op s).1 ∧ (work s).store = (op s).2

/-- The same call with its answer put in another form. -/
theorem Store.OneCall.answered {α : Type} [Nonempty α] {op : Store → Except StoreError α × Store}
    {work : Store → Reply} (h : OneCall op work) {f : α → StoreAnswer} (hf : f.Injective) :
    OneCall (fun s => Store.answered f (op s)) work := by
  obtain ⟨told, hconcluded, hwork⟩ := h
  refine ⟨fun a => told (a.map f.invFun), fun a => ?_, fun s => ⟨?_, (hwork s).2⟩⟩
  · exact (concluded_map f.invFun a _).1 (hconcluded _)
  · have hback : (Store.answered f (op s)).1.map f.invFun = (op s).1 := by
      unfold Store.answered
      cases (op s).1 with
      | error e => rfl
      | ok a => exact congrArg Except.ok (Function.leftInverse_invFun hf a)
    exact (hwork s).1.trans (congrArg told hback.symm)

namespace Gateway

section Work

variable (clock : Clock) (token : String) (t : Tenant)

theorem oneCall_acquire (key : String) (ttl : Span) :
    Store.OneCall (fun s => Lock.acquire (.ofLogical t key) token clock.now s ttl)
      (acquire clock token t · key ttl) := by
  refine ⟨fun
    | .error e => (failed e default (.lock "acquire" "error" .zero)).told
    | .ok true =>
      (.ok (.acquired (Lease.grant true token clock.wall ttl)),
        lockSample "acquire" "acquired" ++
          audited clock t .acquireLock [("key", .text key), ("ttl_ms", auditedMillis ttl)], none)
    | .ok false =>
      (.ok (.acquired (Lease.grant false token clock.wall ttl)), lockSample "acquire" "contended",
        none), ?_, fun s => ?_⟩
  · rintro (e | _ | _)
    exacts [rfl, ⟨_, rfl⟩, ⟨_, rfl⟩]
  · beta_reduce
    unfold acquire
    obtain ⟨e | _ | _, s₁⟩ := Lock.acquire (.ofLogical t key) token clock.now s ttl <;>
      exact ⟨rfl, rfl⟩

theorem oneCall_release (key : String) :
    Store.OneCall (fun s => Lock.release (.ofLogical t key) token clock.now s)
      (release clock token t · key) := by
  refine ⟨fun
    | .error e => (failed e default (.lock "release" "error" .zero)).told
    | .ok true =>
      (.ok (.released true),
        lockSample "release" "released" ++ audited clock t .releaseLock [("key", .text key)], none)
    | .ok false => (.ok (.released false), lockSample "release" "not_owner", none), ?_, fun s => ?_⟩
  · rintro (e | _ | _)
    exacts [rfl, ⟨_, rfl⟩, ⟨_, rfl⟩]
  · beta_reduce
    unfold release
    obtain ⟨e | _ | _, s₁⟩ := Lock.release (.ofLogical t key) token clock.now s <;>
      exact ⟨rfl, rfl⟩

theorem oneCall_renew (key : String) (ttl : Span) :
    Store.OneCall (fun s => Lock.renew (.ofLogical t key) token clock.now s ttl)
      (renew clock token t · key ttl) := by
  refine ⟨fun
    | .error e => (failed e default (.lock "renew" "error" .zero)).told
    | .ok true =>
      (.ok (.renewed (Lease.renewal true clock.wall ttl)),
        lockSample "renew" "renewed" ++
          audited clock t .renewLock [("key", .text key), ("ttl_ms", auditedMillis ttl)], none)
    | .ok false =>
      (.ok (.renewed (Lease.renewal false clock.wall ttl)), lockSample "renew" "not_owner", none),
    ?_, fun s => ?_⟩
  · rintro (e | _ | _)
    exacts [rfl, ⟨_, rfl⟩, ⟨_, rfl⟩]
  · beta_reduce
    unfold renew
    obtain ⟨e | _ | _, s₁⟩ := Lock.renew (.ofLogical t key) token clock.now s ttl <;>
      exact ⟨rfl, rfl⟩

theorem oneCall_publish (channel payload : String) :
    Store.OneCall (fun s => s.publish (t.isolate channel) payload)
      (publish clock t · channel payload) := by
  refine ⟨fun
    | .error e => (failed e default (.publish false .zero)).told
    | .ok n =>
      (.ok (.published n),
        .ofSamples [.publish true .zero] ++
          audited clock t .publish
            [("bytes", .int (Utf8.size payload)), ("channel", .text channel)], none),
    ?_, fun s => ?_⟩
  · rintro (e | n)
    exacts [rfl, ⟨_, rfl⟩]
  · beta_reduce
    unfold publish
    obtain ⟨e | n, s₁⟩ := s.publish (t.isolate channel) payload <;> exact ⟨rfl, rfl⟩

theorem oneCall_subscribe (names : List String) :
    Store.OneCall (fun s => s.subscribe (t.channels names)) (subscribe t · names) := by
  refine ⟨fun
    | .error e => (.error (.ofStore e), .ofLog [.storeFailed e], none)
    | .ok id => (.ok .subscribed, {}, some ⟨t, t.channels names, id⟩), ?_, fun s => ?_⟩
  · rintro (e | id)
    exacts [rfl, ⟨_, rfl⟩]
  · beta_reduce
    unfold subscribe Feed.subscribe
    obtain ⟨e | id, s₁⟩ := s.subscribe (t.channels names) <;> exact ⟨rfl, rfl⟩

/-- The work of a request is its call of the store. -/
theorem oneCall_perform (r : Request) :
    Store.OneCall (fun s => s.call clock.now (r.storeCall t token)) (perform clock token t r) := by
  have hflag : StoreAnswer.flag.Injective := fun _ _ h => StoreAnswer.flag.inj h
  cases r with
  | acquire key ttl => exact (oneCall_acquire clock token t key ttl).answered hflag
  | release key held => exact (oneCall_release clock held t key).answered hflag
  | renew key held ttl => exact (oneCall_renew clock held t key ttl).answered hflag
  | publish channel payload =>
    exact (oneCall_publish clock t channel payload).answered fun _ _ h => StoreAnswer.count.inj h
  | subscribe names =>
    exact (oneCall_subscribe t names).answered fun _ _ h => StoreAnswer.opened.inj h

end Work

variable {g : Gateway} {t : Tenant} {r : Request}

theorem oneCall_call (h : g.complaint? t r = none) (clock : Clock) (fresh : String) :
    Store.OneCall (fun s => s.call clock.now (r.storeCall t fresh)) (g.call clock fresh t r) := by
  obtain ⟨told, hconcluded, hwork⟩ := oneCall_perform clock fresh t r
  refine ⟨fun a => ((told a).1, .ofLog (g.admission t r).2 ++ (told a).2.1, (told a).2.2),
    hconcluded, fun s => ?_⟩
  obtain ⟨htold, hstore⟩ := hwork s
  beta_reduce at htold ⊢
  rw [call_of_no_complaint h, ← htold]
  exact ⟨rfl, hstore⟩

/-- A call about which a check complains is answered with the first complaint, which is none of the
store's errors, and leaves the store, the lock and publish metrics and the audit trail alone, whatever
the store is like. Any other call is one call of the store, whose errors are passed on with their
text. So an answer that is an error, but not one of the store's, is the answer at every time and for
every state of the store. -/
theorem answered_before_the_store (g : Gateway) (t : Tenant) (r : Request) :
    (∀ e, g.complaint? t r = some e → e.code ≠ .storeError ∧ ∀ clock fresh s,
      let reply := g.call clock fresh t r s
      reply.answer = .error e ∧ reply.store = s ∧ reply.feed = none ∧
        reply.effects.samples = [] ∧ reply.effects.records = []) ∧
    (g.complaint? t r = none → ∀ clock fresh,
      Store.OneCall (fun s => s.call clock.now (r.storeCall t fresh)) (g.call clock fresh t r)) ∧
    ∀ clock fresh s e, (g.call clock fresh t r s).answer = .error e → e.code ≠ .storeError →
      ∀ clock' fresh' s', (g.call clock' fresh' t r s').answer = .error e ∧
        (g.call clock' fresh' t r s').store = s' := by
  refine ⟨fun e h => ⟨code_of_complaint h, fun clock fresh s => ?_⟩, oneCall_call,
    fun clock fresh s e ha hcode clock' fresh' s' => ?_⟩
  · rw [call_of_complaint h]
    exact ⟨rfl, rfl, rfl, rfl, rfl⟩
  · cases h : g.complaint? t r with
    | some e' =>
      rw [call_of_complaint h] at ha ⊢
      exact ⟨ha, rfl⟩
    | none =>
      -- what the store answers is no such error
      obtain ⟨told, hconcluded, hwork⟩ := oneCall_call h clock fresh
      have htold : (told (s.call clock.now (r.storeCall t fresh)).1).1 = .error e :=
        (congrArg Prod.fst (hwork s).1).symm.trans ha
      have hc := hconcluded (s.call clock.now (r.storeCall t fresh)).1
      rw [htold] at hc
      cases hans : (s.call clock.now (r.storeCall t fresh)).1 with
      | error err =>
        rw [hans] at hc
        cases hc
        exact absurd rfl hcode
      | ok a =>
        rw [hans] at hc
        obtain ⟨response, hresponse⟩ := hc
        cases hresponse

/-- A renewal that is wrong in every argument is refused for its user, and one by somebody else for
its key, by a closed store as by one behind a switch that is on; without faults the closed store is
asked, and says so. -/
theorem answered_before_the_store_precedence :
    let ann : Tenant := ⟨"ann", none⟩
    let bob : Tenant := ⟨"bob", none⟩
    let g : Gateway := ⟨{}, .allowList ["bob"]⟩
    let shut := (Store.ofCapacity 1).close
    let cut := ((Store.ofCapacity 1).behindSwitch).setFailing true
    (g.call default "" ann (.renew "" "" ⟨0⟩) shut).answer =
        .error ⟨.forbidden, "User ann is not permitted"⟩ ∧
      (g.call default "" ann (.renew "" "" ⟨0⟩) cut).answer =
        .error ⟨.forbidden, "User ann is not permitted"⟩ ∧
      (g.call default "" bob (.renew "" "" ⟨0⟩) cut).answer =
        .error ⟨.missingField, "Required field 'key' is missing"⟩ ∧
      (g.call default "" bob (.renew "k" "A" ⟨1⟩) shut).answer =
        .error ⟨.storeError, "Store is closed"⟩ := by
  intro ann bob g shut cut
  obtain ⟨hann, -, hsame⟩ := answered_before_the_store g ann (.renew "" "" ⟨0⟩)
  obtain ⟨hbob, -, -⟩ := answered_before_the_store g bob (.renew "" "" ⟨0⟩)
  obtain ⟨-, hvalid, -⟩ := answered_before_the_store g bob (.renew "k" "A" ⟨1⟩)
  have hshut := ((hann ⟨.forbidden, "User ann is not permitted"⟩ (by decide)).2 default "" shut).1
  refine ⟨hshut, (hsame _ _ _ _ hshut (by decide) default "" cut).1,
    ((hbob ⟨.missingField, "Required field 'key' is missing"⟩ (by decide)).2 default "" cut).1, ?_⟩
  obtain ⟨told, hconcluded, hwork⟩ := hvalid (by decide) default ""
  exact (congrArg Prod.fst (hwork shut).1).trans (hconcluded (.error .closed))

end Gateway

end Tenancy
