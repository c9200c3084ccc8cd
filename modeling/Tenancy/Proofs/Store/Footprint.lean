import Tenancy.Lock
import Tenancy.Proofs.Hub.Tidy

/-!
# What an operation touches

An operation on an entry that answers `false` leaves all entries as they are, the expired ones
included, and one that answers `true` changes no other key. A publish or a subscription changes no
channel that it does not name. `Store.Within` says this of a store: outside the given keys and
channels it is as before.
-/

namespace Tenancy

namespace Entries

variable (es : Entries) (now : Instant) (key : String)

/-! ## Entries -/

/-- `es'` is `es` but for the entry under `key`. -/
def ButFor (es' : Entries) : Prop := ∀ k, k ≠ key → es'.find? k = es.find? k

theorem butFor_insert (e : Entry) : es.ButFor key (es.insert key e) := by
  intro k hk
  rw [find?_insert, if_neg (Ne.symm hk)]

theorem butFor_erase : es.ButFor key (es.erase key) := by
  intro k hk
  rw [find?_erase, if_neg (Ne.symm hk)]

/-- What an operation that answers with a flag leaves behind: nothing new after `false`, and at most
one entry changed after `true`. -/
structure Guarded (r : Bool × Entries) : Prop where
  kept : r.1 = false → r.2 = es
  butFor : es.ButFor key r.2

theorem Guarded.refused : es.Guarded key (false, es) where
  kept _ := rfl
  butFor _ _ := rfl

theorem Guarded.done {es' : Entries} (h : es.ButFor key es') : es.Guarded key (true, es') where
  kept hf := by cases hf
  butFor := h

theorem guarded_setIfAbsent (value : String) (ttl : Option Span) :
    es.Guarded key (es.setIfAbsent now key value ttl) := by
  unfold setIfAbsent
  split
  · exact .refused es key
  · exact .done es key (es.butFor_insert key _)

theorem guarded_compareAndDelete (expected : String) :
    es.Guarded key (es.compareAndDelete now key expected) := by
  unfold compareAndDelete
  split
  · split
    · exact .done es key (es.butFor_erase key)
    · exact .refused es key
  · exact .refused es key

theorem guarded_compareAndExpire (expected : String) (ttl : Span) :
    es.Guarded key (es.compareAndExpire now key expected ttl) := by
  unfold compareAndExpire
  split
  · split
    · exact .done es key (es.butFor_insert key _)
    · exact .refused es key
  · exact .refused es key

end Entries

/-! ## Channels -/

namespace Hub

/-- What a hub holds of a channel: its number of subscribers, if it is open, and the inboxes on it,
each with the id of its subscription. -/
def channel (h : Hub) (c : String) : Option (String × Nat) × List (Nat × Inbox) :=
  (h.counts.find? (·.1 = c),
    h.subscriptions.flatMap fun s => (s.inboxes.filter (·.channel = c)).map fun b => (s.id, b))

theorem find?_countIn_other {c d : String} (hd : d ≠ c) (counts : List (String × Nat)) :
    (countIn c counts).find? (·.1 = d) = counts.find? (·.1 = d) := by
  induction counts with
  | nil => simp [countIn, Ne.symm hd]
  | cons p rest ih =>
    obtain ⟨e, n⟩ := p
    rw [countIn]
    split
    · rename_i hec
      simp [hec, Ne.symm hd]
    · by_cases hed : e = d
      · simp [hed]
      · simpa [hed] using ih

theorem find?_foldl_countIn_other {d : String} {names : List String} (hd : d ∉ names)
    (counts : List (String × Nat)) :
    (names.foldl (fun counts c => countIn c counts) counts).find? (·.1 = d) =
      counts.find? (·.1 = d) := by
  induction names generalizing counts with
  | nil => rfl
  | cons c names ih =>
    rw [List.mem_cons, not_or] at hd
    rw [List.foldl_cons, ih hd.2, find?_countIn_other hd.1]

theorem channel_subscribe {d : String} {channels : List String} (hd : d ∉ channels) (h : Hub) :
    (h.subscribe channels).2.channel d = h.channel d := by
  have hnames : d ∉ distinct channels := fun hm => hd (mem_distinct.1 hm)
  -- the new subscription has no inbox on the channel
  have hnew : (opened h.nextId channels).inboxes.filter (·.channel = d) = [] := by
    refine List.filter_eq_nil_iff.2 fun b hb => ?_
    obtain ⟨c, hc, rfl⟩ := List.mem_map.1 hb
    exact fun hcd => hnames (of_decide_eq_true hcd ▸ hc)
  have hs : (h.subscribe channels).2.subscriptions =
      h.subscriptions ++ [opened h.nextId channels] :=
    rfl
  unfold channel
  refine Prod.ext (find?_foldl_countIn_other hnames h.counts) ?_
  rw [hs, List.flatMap_append, List.flatMap_singleton, hnew, List.map_nil, List.append_nil]

theorem inboxes_heard_other {c d : String} (hd : d ≠ c) (h : Hub) (payload : String)
    (s : Subscription) :
    (h.heard c payload s).inboxes.filter (·.channel = d) = s.inboxes.filter (·.channel = d) := by
  rw [heard]
  induction s.inboxes with
  | nil => rfl
  | cons b bs ih =>
    rw [List.map_cons, List.filter_cons, List.filter_cons, ih]
    split
    · rename_i hb
      have hbc : b.channel = c := by simpa using (Bool.and_eq_true_iff.1 hb).2
      have hpush := (push_linked_channel h.bufferSize ⟨c, payload⟩ b).2
      simp [hpush, hbc, Ne.symm hd]
    · rfl

theorem channel_publish {c d : String} (hd : d ≠ c) (h : Hub) (payload : String) :
    (h.publish c payload).2.channel d = h.channel d := by
  unfold channel
  refine Prod.ext rfl ?_
  rw [subscriptions_publish, List.flatMap_map]
  refine List.flatMap_congr fun s _ => ?_
  rw [inboxes_heard_other hd]
  rfl

end Hub

/-! ## Stores -/

namespace Store

/-- Outside the given keys and channels, `s'` holds what `s` holds. -/
structure Within (s : Store) (keys channels : List String) (s' : Store) : Prop where
  entries : ∀ k, k ∉ keys → s'.entries.find? k = s.entries.find? k
  hub : ∀ c, c ∉ channels → s'.hub.channel c = s.hub.channel c

variable {s : Store} {keys channels : List String}

theorem Within.refl (s : Store) (keys channels : List String) : s.Within keys channels s where
  entries _ _ := rfl
  hub _ _ := rfl

/-- What a call that works on one entry leaves behind: only the answer `true` leaves a trace, and
only under the key. -/
structure Guarded (s : Store) (key : String) (r : Except StoreError Bool × Store) : Prop where
  kept : r.1 ≠ .ok true → r.2 = s
  within : s.Within [key] [] r.2

theorem guarded_onEntries {key : String} {f : Entries → Bool × Entries}
    (hf : s.entries.Guarded key (f s.entries)) : s.Guarded key (s.onEntries f) := by
  unfold onEntries
  cases s.available with
  | error e => exact ⟨fun _ => rfl, .refl ..⟩
  | ok u =>
    refine ⟨fun hans => ?_, fun k hk => hf.butFor k (by simpa using hk), fun _ _ => rfl⟩
    have hfalse : (f s.entries).1 = false := by
      cases hb : (f s.entries).1 with
      | false => rfl
      | true => exact absurd (congrArg Except.ok hb) hans
    simp only [hf.kept hfalse]

/-- What a call that works on channels leaves behind: nothing if it fails. -/
structure Routed {α : Type} (s : Store) (channels : List String) (r : Except StoreError α × Store) :
    Prop where
  kept : ∀ e, r.1 = .error e → r.2 = s
  within : s.Within [] channels r.2

theorem routed_publish (s : Store) (channel payload : String) :
    s.Routed [channel] (s.publish channel payload) := by
  unfold publish
  cases s.available with
  | error e => exact ⟨fun _ _ => rfl, .refl ..⟩
  | ok u =>
    have hother : ∀ c ∉ [channel], (s.hub.publish channel payload).2.channel c = s.hub.channel c :=
      fun c hc => Hub.channel_publish (by simpa using hc) s.hub payload
    exact ⟨(nomatch ·, ·), fun _ _ => rfl, hother⟩

theorem routed_subscribe (s : Store) (channels : List String) :
    s.Routed channels (s.subscribe channels) := by
  unfold subscribe
  cases s.available with
  | error e => exact ⟨fun _ _ => rfl, .refl ..⟩
  | ok u =>
    exact ⟨(nomatch ·, ·), fun _ _ => rfl, fun c hc => Hub.channel_subscribe hc s.hub⟩

end Store

namespace Lock

variable (k : Key) (token : String) (now : Instant) (s : Store)

theorem guarded_acquire (ttl : Span) : s.Guarded k.physical (acquire k token now s ttl) := by
  unfold acquire Store.setIfAbsent
  exact Store.guarded_onEntries (s.entries.guarded_setIfAbsent now k.physical token (some ttl))

theorem guarded_release : s.Guarded k.physical (release k token now s) := by
  unfold release Store.compareAndDelete
  exact Store.guarded_onEntries (s.entries.guarded_compareAndDelete now k.physical token)

theorem guarded_renew (ttl : Span) : s.Guarded k.physical (renew k token now s ttl) := by
  unfold renew Store.compareAndExpire
  exact Store.guarded_onEntries (s.entries.guarded_compareAndExpire now k.physical token ttl)

end Lock

end Tenancy
