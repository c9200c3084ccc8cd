import Tenancy.Proofs.Codec
import Tenancy.Proofs.Gateway.Admission
import Tenancy.Proofs.Gateway.Trace
import Tenancy.Proofs.Store.Deed
import Tenancy.Proofs.Store.Entries

/-!
# Names that collide

Ids may contain the delimiter, and then one logical name can have the same physical name for two
tenants. That happens exactly where both are in an organization and their ids give one text around the
mark between them (`Namespace.isolate_eq_isolate_iff`). The mark cannot overlap with itself, so it is
enough that no organization id contains it (`append_separator_inj`).
-/

namespace Tenancy

/-! ## Separators -/

section Separator

variable {α : Type} {c : α} {tail l₁ l₂ r₁ r₂ d : List α}

/-- A separator whose first element does not come again in it is not found shortly behind its place:
it would have to lie within what was put before it. -/
theorem eq_nil_of_separator (hc : c ∉ tail) (hd : ¬ c :: tail <:+: d)
    (h : c :: tail ++ r₁ = d ++ (c :: tail ++ r₂)) : d = [] := by
  cases d with
  | nil => rfl
  | cons x d =>
    exfalso
    obtain ⟨rfl, htail⟩ := List.cons.inj h
    rcases List.append_eq_append_iff.1 htail with ⟨e, rfl, -⟩ | ⟨e, he, hsep⟩
    · exact hd (List.prefix_append (c :: tail) e).isInfix
    · cases e with
      | nil =>
        rw [List.append_nil] at he
        exact hd (he ▸ List.infix_refl _)
      | cons y e =>
        obtain ⟨rfl, -⟩ := List.cons.inj hsep
        exact hc (he ▸ List.mem_append_right d List.mem_cons_self)

/-- Around a separator that neither front contains, fronts and rests can be read off. -/
theorem append_separator_inj (hc : c ∉ tail) (h₁ : ¬ c :: tail <:+: l₁) (h₂ : ¬ c :: tail <:+: l₂)
    (h : l₁ ++ (c :: tail ++ r₁) = l₂ ++ (c :: tail ++ r₂)) : l₁ = l₂ ∧ r₁ = r₂ := by
  rcases List.append_eq_append_iff.1 h with ⟨d, rfl, hrest⟩ | ⟨d, rfl, hrest⟩
  · have hd : ¬ c :: tail <:+: d := fun hin => h₂ (hin.trans (List.suffix_append l₁ d).isInfix)
    obtain rfl := eq_nil_of_separator hc hd hrest
    exact ⟨(List.append_nil l₁).symm, List.append_cancel_left hrest⟩
  · have hd : ¬ c :: tail <:+: d := fun hin => h₁ (hin.trans (List.suffix_append l₂ d).isInfix)
    obtain rfl := eq_nil_of_separator hc hd hrest
    exact ⟨List.append_nil l₂, (List.append_cancel_left hrest).symm⟩

end Separator

/-! ## Equal names -/

namespace Namespace

variable {o₁ u₁ o₂ u₂ : String}

/-- The logical name plays no part. -/
theorem isolate_eq_iff_stem_eq (k : String) :
    isolate o₁ u₁ k = isolate o₂ u₂ k ↔ stem o₁ u₁ = stem o₂ u₂ := by
  rw [isolate, isolate, ← String.toList_inj, String.toList_append, String.toList_append,
    List.append_left_inj, String.toList_inj]

theorem stem_eq_iff_of_organizations (h₁ : o₁ ≠ "") (h₂ : o₂ ≠ "") :
    stem o₁ u₁ = stem o₂ u₂ ↔ o₁ ++ ":user-" ++ u₁ = o₂ ++ ":user-" ++ u₂ := by
  have hstem {o : String} (ho : o ≠ "") (u : String) :
      (stem o u).toList = "org-".toList ++ ((o ++ ":user-" ++ u).toList ++ [':']) := by
    simp [stem, ho, String.toList_append]
  rw [← String.toList_inj, hstem h₁, hstem h₂, List.append_right_inj, List.append_left_inj,
    String.toList_inj]

theorem stem_eq_iff_of_outside : stem "" u₁ = stem "" u₂ ↔ u₁ = u₂ := by
  simp [stem, ← String.toList_inj, String.toList_append]

/-- Inside an organization and outside any the first characters differ. -/
theorem stem_ne_of_outside (h₁ : o₁ ≠ "") : stem o₁ u₁ ≠ stem "" u₂ := by
  simp [stem, h₁, ← String.toList_inj, String.toList_append]

/-- Different ids give one physical name exactly where both name an organization and are the same text
around the mark of the user. -/
theorem isolate_eq_isolate_iff (h : (o₁, u₁) ≠ (o₂, u₂)) (k : String) :
    isolate o₁ u₁ k = isolate o₂ u₂ k ↔
      o₁ ≠ "" ∧ o₂ ≠ "" ∧ o₁ ++ ":user-" ++ u₁ = o₂ ++ ":user-" ++ u₂ := by
  rw [isolate_eq_iff_stem_eq]
  by_cases h₁ : o₁ = ""
  · by_cases h₂ : o₂ = ""
    · subst h₁ h₂
      have hu : u₁ ≠ u₂ := fun hu => h (by rw [hu])
      simp [stem_eq_iff_of_outside, hu]
    · subst h₁
      simp [(stem_ne_of_outside h₂).symm]
  · by_cases h₂ : o₂ = ""
    · subst h₂
      simp [stem_ne_of_outside h₁]
    · simp [stem_eq_iff_of_organizations h₁ h₂, h₁, h₂]

/-- Organizations that do not contain the mark keep their users apart. -/
theorem isolate_ne_of_unmarked (h : (o₁, u₁) ≠ (o₂, u₂)) (h₁ : ¬ ":user-".toList <:+: o₁.toList)
    (h₂ : ¬ ":user-".toList <:+: o₂.toList) (k : String) : isolate o₁ u₁ k ≠ isolate o₂ u₂ k := by
  rw [ne_eq, isolate_eq_isolate_iff h]
  rintro ⟨-, -, heq⟩
  rw [← String.toList_inj] at heq
  simp only [String.toList_append, List.append_assoc] at heq
  obtain ⟨ho, hu⟩ := append_separator_inj (by decide) h₁ h₂ heq
  exact h (by rw [String.toList_inj.1 ho, String.toList_inj.1 hu])

end Namespace

/-! ## Tenants -/

/-- The logical names that a request gives. -/
def Request.names : Request → List String
  | .acquire key _ | .release key _ | .renew key _ _ => [key]
  | .publish channel _ => [channel]
  | .subscribe names => names

namespace Request

variable {r : Request} {t : Tenant} {p : String}

/-- What a request names in the store are its logical names, under the tenant. -/
theorem exists_of_mem_keys (h : p ∈ r.keys t) : ∃ k ∈ r.names, p = t.isolate k := by
  cases r <;> simp_all [keys, names]

theorem exists_of_mem_channels (h : p ∈ r.channels t) : ∃ k ∈ r.names, p = t.isolate k := by
  cases r with
  | subscribe names =>
    obtain ⟨k, hk, rfl⟩ := List.mem_map.1 h
    exact ⟨k, mem_distinct.1 hk, rfl⟩
  | _ => simp_all [channels, names]

end Request

/-! ## What a call reads -/

section Reads

variable {s s' : Store} {t : Tenant} {r : Request}

theorem Gateway.available_call (g : Gateway) (clock : Clock) (fresh : String) (t : Tenant)
    (r : Request) (s : Store) : (g.call clock fresh t r s).store.available = s.available := by
  cases h : g.complaint? t r with
  | some e => rw [Gateway.call_of_complaint h]
  | none =>
    obtain ⟨told, -, hwork⟩ := Gateway.oneCall_call h clock fresh
    rw [(hwork s).2]
    exact (s.sameDoor_call clock.now (r.storeCall t fresh)).available_eq

theorem Entries.live?_congr {es es' : Entries} {k : String} (h : es'.find? k = es.find? k)
    (now : Instant) : es'.live? k now = es.live? k now := by
  rw [Entries.live?_eq_bind, Entries.live?_eq_bind, h]

/-- The listeners of a channel are its linked inboxes. -/
theorem Hub.listeners_eq_channel (h : Hub) (c : String) :
    h.listeners c = (h.channel c).2.countP (·.2.linked) := by
  rw [Hub.listeners_eq_sum, Hub.channel, List.countP_flatMap]
  congr 1
  refine List.map_congr_left fun s _ => ?_
  simp [Subscription.listens, List.countP_map, List.countP_filter, Function.comp_def]

/-- What a call is answered depends on what the store holds under the names that it gives, and on
whether the store answers at all. -/
theorem Gateway.answer_congr (g : Gateway) (clock : Clock) (fresh : String)
    (havailable : s'.available = s.available)
    (hkeys : ∀ p ∈ r.keys t, s'.entries.find? p = s.entries.find? p)
    (hchannels : ∀ p ∈ r.channels t, s'.hub.channel p = s.hub.channel p) :
    (g.call clock fresh t r s').answer = (g.call clock fresh t r s).answer := by
  cases h : g.complaint? t r with
  | some e => rw [Gateway.call_of_complaint h, Gateway.call_of_complaint h]
  | none =>
    rw [Gateway.call_of_no_complaint h, Gateway.call_of_no_complaint h]
    change (Gateway.perform ..).answer = (Gateway.perform ..).answer
    cases ho : s.available with
    | error e =>
      obtain ⟨told, -, hwork⟩ := Gateway.oneCall_perform clock fresh t r
      have htold := (hwork s).1
      have htold' := (hwork s').1
      beta_reduce at htold htold'
      rw [Store.call_of_unavailable ho] at htold
      rw [Store.call_of_unavailable (havailable.trans ho)] at htold'
      exact congrArg Prod.fst (htold'.trans htold.symm)
    | ok u =>
      obtain ⟨⟩ := u
      have ho' := havailable.trans ho
      cases r with
      | acquire key ttl =>
        have hlive := Entries.live?_congr (hkeys (t.isolate key) (by simp [Request.keys])) clock.now
        rw [(Reply.outcome_eq_iff.1 (Gateway.perform_acquire ho' key ttl)).1,
          (Reply.outcome_eq_iff.1 (Gateway.perform_acquire ho key ttl)).1,
          Entries.setIfAbsent_fst, Entries.setIfAbsent_fst, hlive]
      | release key token =>
        have hlive := Entries.live?_congr (hkeys (t.isolate key) (by simp [Request.keys])) clock.now
        rw [(Reply.outcome_eq_iff.1 (Gateway.perform_release ho' key token)).1,
          (Reply.outcome_eq_iff.1 (Gateway.perform_release ho key token)).1,
          Entries.compareAndDelete_fst, Entries.compareAndDelete_fst, hlive]
      | renew key token ttl =>
        have hlive := Entries.live?_congr (hkeys (t.isolate key) (by simp [Request.keys])) clock.now
        rw [(Reply.outcome_eq_iff.1 (Gateway.perform_renew ho' key token ttl)).1,
          (Reply.outcome_eq_iff.1 (Gateway.perform_renew ho key token ttl)).1,
          Entries.compareAndExpire_fst, Entries.compareAndExpire_fst, hlive]
      | publish channel payload =>
        have hchannel := hchannels (t.isolate channel) (by simp [Request.channels])
        rw [(Reply.outcome_eq_iff.1 (Gateway.perform_publish ho' channel payload)).1,
          (Reply.outcome_eq_iff.1 (Gateway.perform_publish ho channel payload)).1,
          Hub.listeners_eq_channel, Hub.listeners_eq_channel, hchannel]
      | subscribe names =>
        rw [(Reply.outcome_eq_iff.1 (Gateway.perform_subscribe ho' names)).1,
          (Reply.outcome_eq_iff.1 (Gateway.perform_subscribe ho names)).1]

end Reads

namespace Tenant

variable {a b : Tenant}

/-- Two tenants are told apart where one has no organization, and where no organization contains
the mark of a user. -/
def ToldApart (a b : Tenant) : Prop :=
  a.organizationId = "" ∨ b.organizationId = "" ∨
    ¬ ":user-".toList <:+: a.organizationId.toList ∧ ¬ ":user-".toList <:+: b.organizationId.toList

theorem ToldApart.isolate_ne (h : a.ToldApart b) (hab : ¬ a.SameIds b) (k : String) :
    a.isolate k ≠ b.isolate k := by
  have hids : (a.organizationId, a.user) ≠ (b.organizationId, b.user) := fun he =>
    hab ⟨congrArg Prod.snd he, congrArg Prod.fst he⟩
  rcases h with ha | hb | ⟨ha, hb⟩
  · exact fun heq => ((Namespace.isolate_eq_isolate_iff hids k).1 heq).1 ha
  · exact fun heq => ((Namespace.isolate_eq_isolate_iff hids k).1 heq).2.1 hb
  · exact Namespace.isolate_ne_of_unmarked hids ha hb k

/-- Requests of one tenant that only name `k` leave the lock and the channel of the other alone, and
it is answered as if they had not been made. -/
theorem ToldApart.kept (h : a.ToldApart b) (hab : ¬ a.SameIds b) {k : String} {r : Request}
    (hr : ∀ n ∈ r.names, n = k) (g : Gateway) (clock : Clock) (fresh : String) (s : Store) :
    let s' := (g.call clock fresh a r s).store
    s'.entries.find? (b.isolate k) = s.entries.find? (b.isolate k) ∧
      s'.hub.channel (b.isolate k) = s.hub.channel (b.isolate k) ∧
      ∀ r', (∀ n ∈ r'.names, n = k) → ∀ g' clock' fresh',
        (Gateway.call g' clock' fresh' b r' s').answer = (g'.call clock' fresh' b r' s).answer := by
  intro s'
  have hne : ∀ n ∈ r.names, b.isolate k ≠ a.isolate n := fun n hn =>
    hr n hn ▸ (h.isolate_ne hab k).symm
  have hwithin := (g.accounted_call clock fresh a s r).within
  have hentry : s'.entries.find? (b.isolate k) = s.entries.find? (b.isolate k) := by
    refine hwithin.entries _ fun hk => ?_
    obtain ⟨n, hn, he⟩ := Request.exists_of_mem_keys hk
    exact hne n hn he
  have hchannel : s'.hub.channel (b.isolate k) = s.hub.channel (b.isolate k) := by
    refine hwithin.hub _ fun hc => ?_
    obtain ⟨n, hn, he⟩ := Request.exists_of_mem_channels hc
    exact hne n hn he
  refine ⟨hentry, hchannel, fun r' hr' g' clock' fresh' =>
    g'.answer_congr clock' fresh' (g.available_call clock fresh a r s) (fun p hp => ?_) fun p hp => ?_⟩
  · obtain ⟨n, hn, rfl⟩ := Request.exists_of_mem_keys hp
    exact hr' n hn ▸ hentry
  · obtain ⟨n, hn, rfl⟩ := Request.exists_of_mem_channels hp
    exact hr' n hn ▸ hchannel

/-- Different ids give a logical name one physical name exactly where both name an organization and
are the same text around the mark of the user. So tenants of which one has no organization, and
tenants whose organizations do not contain the mark, never share the lock or the channel of a name:
whatever one asks under it, what the store holds under it for the other stays, and so do the answers
that the other would get. -/
theorem collisions :
    (∀ o₁ u₁ o₂ u₂ k : String, (o₁, u₁) ≠ (o₂, u₂) →
      (Namespace.isolate o₁ u₁ k = Namespace.isolate o₂ u₂ k ↔
        o₁ ≠ "" ∧ o₂ ≠ "" ∧ o₁ ++ ":user-" ++ u₁ = o₂ ++ ":user-" ++ u₂)) ∧
    ∀ a b : Tenant, ¬ a.SameIds b →
      (a.organizationId = "" ∨ b.organizationId = "" ∨
        ¬ ":user-".toList <:+: a.organizationId.toList ∧
          ¬ ":user-".toList <:+: b.organizationId.toList) →
      ∀ k, a.isolate k ≠ b.isolate k ∧
        ∀ (r : Request), (∀ n ∈ r.names, n = k) → ∀ (g : Gateway) clock fresh s,
          let s' := (g.call clock fresh a r s).store
          s'.entries.find? (b.isolate k) = s.entries.find? (b.isolate k) ∧
            s'.hub.channel (b.isolate k) = s.hub.channel (b.isolate k) ∧
            ∀ r', (∀ n ∈ r'.names, n = k) → ∀ g' clock' fresh',
              (Gateway.call g' clock' fresh' b r' s').answer =
                (g'.call clock' fresh' b r' s).answer :=
  ⟨fun _ _ _ _ k h => Namespace.isolate_eq_isolate_iff h k, fun a b hab (h : a.ToldApart b) k =>
    ⟨h.isolate_ne hab k, fun _ hr => h.kept hab hr⟩⟩

/-- With the mark in its organization, the first tenant has the second one's names. The third has a
delimiter there, but no mark, and finds the lock free that the second has taken. -/
theorem collisions_of_marked :
    let a : Tenant := ⟨"c", some "a:user-b"⟩
    let b : Tenant := ⟨"b:user-c", some "a"⟩
    let c : Tenant := ⟨"user-c", some "a:b"⟩
    let s := ((default : Gateway).call default "B" b (.acquire "job" ⟨1⟩) (.ofCapacity 1)).store
    a.isolate "job" = b.isolate "job" ∧ a.isolate "job" ≠ c.isolate "job" ∧
      b.isolate "job" ≠ c.isolate "job" ∧
      ((default : Gateway).call default "C" c (.acquire "job" ⟨1⟩) s).answer =
        ((default : Gateway).call default "C" c (.acquire "job" ⟨1⟩) (.ofCapacity 1)).answer := by
  intro a b c s
  obtain ⟨hiff, hnever⟩ := collisions
  obtain ⟨hne, hkept⟩ := hnever b c (by decide) (.inr (.inr (by decide))) "job"
  refine ⟨(hiff _ _ _ _ "job" (by decide)).2 (by decide), fun h => ?_, hne, ?_⟩
  · exact absurd ((hiff _ _ _ _ "job" (by decide)).1 h).2.2 (by decide)
  · exact (hkept (.acquire "job" ⟨1⟩) (by decide) default default "B" (.ofCapacity 1)).2.2
      (.acquire "job" ⟨1⟩) (by decide) default default "C"

end Tenant

end Tenancy
