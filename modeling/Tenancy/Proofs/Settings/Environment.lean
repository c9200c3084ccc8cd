import Tenancy.Proofs.Digits
import Tenancy.Proofs.Gateway.Admission
import Tenancy.Proofs.Gateway.AllowList

/-!
# Settings from the environment

A variable holds a number if it is set to a text with the number in it and at most blanks around that
(`Environment.Holds`). Each setting with a number comes to the positive number that its variable
holds, or else to its default (`Environment.Sets`), but for the longest lease, which also comes to
zero. Then no lease is short enough, and the gateway takes no lock for anybody; in all other
environments it can serve (`Settings.serves_iff`).
-/

namespace Tenancy

/-! ## Numbers in texts -/

/-- The characters are the number: a plus sign or none, zeros or none, and its digits. -/
def Text.IsNumber (cs : List Char) (n : Nat) : Prop :=
  ∃ sign width, (sign = [] ∨ sign = ['+']) ∧ cs = sign ++ padded width n

/-- A plus sign is no digit. -/
theorem Text.padded_ne_plus {width n : Nat} {rest : List Char} : padded width n ≠ '+' :: rest := by
  intro h
  have hdigit := (isRun_padded width n).2 '+' (h ▸ List.mem_cons_self)
  cases hdigit

theorem wordOfText?_eq_some_iff {s : String} {n : Nat} :
    wordOfText? s = some n ↔ Text.IsNumber s.toList n ∧ n < UInt64.size := by
  unfold wordOfText?
  rw [Option.filter_eq_some_iff, decide_eq_true_eq]
  refine and_congr_left fun _ => ?_
  split
  · rename_i rest hs
    rw [Text.readNat?_eq_some_iff, hs]
    constructor
    · rintro ⟨width, rfl⟩
      exact ⟨['+'], width, .inr rfl, rfl⟩
    · rintro ⟨sign, width, rfl | rfl, heq⟩
      · exact absurd heq.symm Text.padded_ne_plus
      · exact ⟨width, (List.cons.inj heq).2⟩
  · rename_i hs
    rw [Text.readNat?_eq_some_iff]
    constructor
    · rintro ⟨width, heq⟩
      exact ⟨[], width, .inl rfl, heq⟩
    · rintro ⟨sign, width, rfl | rfl, heq⟩
      · exact ⟨width, heq⟩
      · exact absurd heq (hs _)

namespace Environment

variable {env : Environment} {name : String} {fallback n : Nat}

/-- The variable is set to a number of 64 bits, with blanks around it at most. -/
def Holds (env : Environment) (name : String) (n : Nat) : Prop :=
  ∃ text core, env.bytes? name = some (Utf8.encode text) ∧ Text.IsCore text.toList core ∧
    Text.IsNumber core n ∧ n < UInt64.size

theorem parse?_eq_some_iff : env.parse? name wordOfText? = some n ↔ env.Holds name n := by
  simp only [parse?, text?_eq, Option.bind_eq_some_iff, Utf8.decode_eq_some_iff,
    wordOfText?_eq_some_iff, String.toList_ofList]
  constructor
  · rintro ⟨text, ⟨value, hset, rfl⟩, hnumber, hlt⟩
    exact ⟨text, _, hset, Text.isCore_trim text.toList, hnumber, hlt⟩
  · rintro ⟨text, core, hset, hcore, hnumber, hlt⟩
    exact ⟨text, ⟨_, hset, rfl⟩, hcore.trim_eq.symm ▸ hnumber, hlt⟩

theorem Holds.unique {m : Nat} (h : env.Holds name m) (h' : env.Holds name n) : m = n :=
  Option.some.inj ((parse?_eq_some_iff.2 h).symm.trans (parse?_eq_some_iff.2 h'))

/-- What a setting comes to: the positive number that its variable holds, or else its default. -/
inductive Sets (env : Environment) (name : String) (fallback : Nat) : Nat → Prop where
  | held {n : Nat} (h : env.Holds name n) (hpos : 0 < n) : Sets env name fallback n
  | absent (h : ∀ n, env.Holds name n → n = 0) : Sets env name fallback fallback

theorem Sets.pos (h : env.Sets name fallback n) (hfallback : 0 < fallback) : 0 < n := by
  cases h with
  | held _ hpos => exact hpos
  | absent _ => exact hfallback

theorem positive?_eq_some_iff :
    Settings.positive? env name = some n ↔ env.Holds name n ∧ 0 < n := by
  rw [Settings.positive?, Option.filter_eq_some_iff, parse?_eq_some_iff, decide_eq_true_eq]

theorem sets_positive? (env : Environment) (name : String) (fallback : Nat) :
    env.Sets name fallback ((Settings.positive? env name).getD fallback) := by
  cases h : Settings.positive? env name with
  | some n =>
    obtain ⟨hholds, hpos⟩ := positive?_eq_some_iff.1 h
    exact .held hholds hpos
  | none =>
    refine .absent fun n hholds => Nat.eq_zero_of_not_pos fun hpos => ?_
    cases h.symm.trans (positive?_eq_some_iff.2 ⟨hholds, hpos⟩)

/-- A setting that takes zero too follows the rule until its variable holds zero. -/
theorem sets_parse?_iff (hfallback : 0 < fallback) :
    env.Sets name fallback ((env.parse? name wordOfText?).getD fallback) ↔ ¬ env.Holds name 0 := by
  constructor
  · intro hsets hzero
    rw [parse?_eq_some_iff.2 hzero] at hsets
    exact absurd (hsets.pos hfallback) (Nat.lt_irrefl 0)
  · intro hzero
    -- then no number is left out
    have hpositive : Settings.positive? env name = env.parse? name wordOfText? := by
      rw [Settings.positive?]
      cases h : env.parse? name wordOfText? with
      | none => rfl
      | some n =>
        have hn : n ≠ 0 := by
          rintro rfl
          exact hzero (parse?_eq_some_iff.1 h)
        exact Option.filter_some_pos (decide_eq_true (Nat.pos_of_ne_zero hn))
    exact hpositive ▸ sets_positive? env name fallback

end Environment

/-! ## The longest lease -/

namespace Settings

variable {env : Environment}

theorem maxLockTtl_ofEnvironment (env : Environment) :
    (ofEnvironment env).maxLockTtl =
      .ofSecs ((env.parse? "TENANTKV_MAX_LOCK_TTL_SECS" wordOfText?).getD 3600) :=
  Option.getD_map Span.ofSecs 3600 _

theorem expiryInterval_ofEnvironment (env : Environment) :
    (ofEnvironment env).expiryInterval =
      .ofMillis ((positive? env "TENANTKV_EXPIRY_INTERVAL_MS").getD 100) :=
  Option.getD_map Span.ofMillis 100 _

/-- The longest lease is nothing just if its variable holds zero. -/
theorem maxLockTtl_eq_zero_iff :
    (ofEnvironment env).maxLockTtl = ⟨0⟩ ↔ env.Holds "TENANTKV_MAX_LOCK_TTL_SECS" 0 := by
  rw [maxLockTtl_ofEnvironment, ← Environment.parse?_eq_some_iff, Span.ofSecs, Span.mk.injEq]
  cases env.parse? "TENANTKV_MAX_LOCK_TTL_SECS" wordOfText? with
  | none => simp
  | some n => simp

theorem checkTtl_zero (ttl : Span) : checkTtl ttl ⟨0⟩ ≠ .ok () := by
  intro hok
  obtain ⟨hpos, hle⟩ := checkTtl_eq_ok_iff.1 hok
  exact absurd (Nat.lt_of_lt_of_le hpos hle) (Nat.lt_irrefl 0)

/-- The shortest lease is the first to be admitted. -/
theorem exists_checkTtl_iff {longest : Span} :
    (∃ ttl ≤ Span.longest, checkTtl ttl longest = .ok ()) ↔ longest ≠ ⟨0⟩ := by
  constructor
  · rintro ⟨ttl, -, hok⟩ rfl
    exact checkTtl_zero ttl hok
  · intro h
    have hpos : 0 < longest.ns := Nat.pos_of_ne_zero fun h0 => h (congrArg Span.mk h0)
    exact ⟨⟨1⟩, by decide, checkTtl_eq_ok_iff.2 ⟨Nat.one_pos, hpos⟩⟩

end Settings

/-! ## The gateway -/

namespace Gateway

/-- Somebody is let in whatever the list says. -/
theorem exists_authorized (env : Environment) :
    ∃ t : Tenant, ((ofEnvironment env).authorize t).1 = .ok () := by
  cases h : (Settings.ofEnvironment env).allowedUsers with
  | nil => exact ⟨⟨"user", none⟩, (authorize_everybody h _).2 (by decide)⟩
  | cons user users =>
    have hmem : user ∈ (Settings.ofEnvironment env).allowedUsers := h ▸ List.mem_cons_self
    have huser : user ≠ "" := by
      have hread : user ∈ ((env.text? "TENANTKV_ALLOWED_USERS").map Settings.listOfText).getD [] :=
        hmem
      cases htext : env.text? "TENANTKV_ALLOWED_USERS" with
      | none => simp [htext] at hread
      | some text =>
        rw [htext, Option.map_some, Option.getD_some] at hread
        exact (AllowList.mem_listOfText.1 hread).1
    refine ⟨⟨user, none⟩, ?_⟩
    rw [authorize_listed (List.ne_nil_of_mem hmem) huser, if_pos hmem]

/-- A request for a lease is admitted only if the settings admit the lease. -/
theorem Admits.checkTtl {g : Gateway} {t : Tenant} {r : Request} {ttl : Span} (h : g.Admits t r)
    (hlease : r.ttl? = some ttl) : checkTtl ttl g.settings.maxLockTtl = .ok () := by
  have hnone := List.findSome?_eq_none_iff.1 (admits_iff.1 h) .lease (by decide)
  rw [Check.complaint?, hlease, Option.any_some] at hnone
  rw [checkTtl_eq_ok_iff]
  by_contra hbad
  rw [if_pos (decide_eq_true hbad)] at hnone
  cases hnone

theorem admits_acquire {g : Gateway} {t : Tenant} {key : String} {ttl : Span}
    (ht : (g.authorize t).1 = .ok ()) (hkey : key ≠ "")
    (httl : Tenancy.checkTtl ttl g.settings.maxLockTtl = .ok ()) :
    g.Admits t (.acquire key ttl) := by
  have hcheck : (Request.acquire key ttl).check g.settings = .ok () := by
    rw [Request.check, checkPresent, if_neg hkey, httl]
    rfl
  unfold Admits admission
  split
  · rename_i e log he
    rw [he] at ht
    cases ht
  · exact hcheck

/-- A lease can be had from the gateway just if the settings admit one. -/
theorem exists_admits_lease_iff {env : Environment} :
    (∃ t r, r.ttl? ≠ none ∧ (ofEnvironment env).Admits t r) ↔
      ∃ ttl ≤ Span.longest, Tenancy.checkTtl ttl (Settings.ofEnvironment env).maxLockTtl = .ok () := by
  constructor
  · rintro ⟨t, r, hlease, hadmits⟩
    obtain ⟨ttl, hlease⟩ := Option.ne_none_iff_exists'.1 hlease
    have hok := hadmits.checkTtl hlease
    rw [Settings.exists_checkTtl_iff]
    intro hzero
    rw [ofEnvironment, hzero] at hok
    exact Settings.checkTtl_zero ttl hok
  · rintro ⟨ttl, -, hok⟩
    obtain ⟨t, ht⟩ := exists_authorized env
    exact ⟨t, .acquire "key" ttl, Option.some_ne_none ttl, admits_acquire ht (by decide) hok⟩

end Gateway

/-! ## What every environment yields -/

namespace Settings

/-- All numbers are positive ones, and each is what the environment sets it to, but for the longest
lease. That one is as set, and some lease is admitted, by the settings as by the gateway, just if its
variable does not hold zero; else it is zero. -/
theorem serves_iff (env : Environment) :
    let s := ofEnvironment env
    (0 < s.relayBuffer ∧ env.Sets "TENANTKV_RELAY_BUFFER" 64 s.relayBuffer) ∧
    (0 < s.maxChannels ∧ env.Sets "TENANTKV_MAX_CHANNELS" 256 s.maxChannels) ∧
    (0 < s.channelCapacity ∧ env.Sets "TENANTKV_CHANNEL_CAPACITY" 1024 s.channelCapacity) ∧
    (0 < s.expiryInterval.ns ∧ ∃ n, env.Sets "TENANTKV_EXPIRY_INTERVAL_MS" 100 n ∧
      s.expiryInterval = .ofMillis n) ∧
    ((∃ n, env.Sets "TENANTKV_MAX_LOCK_TTL_SECS" 3600 n ∧ s.maxLockTtl = .ofSecs n) ↔
      ¬ env.Holds "TENANTKV_MAX_LOCK_TTL_SECS" 0) ∧
    ((∃ ttl ≤ Span.longest, checkTtl ttl s.maxLockTtl = .ok ()) ↔
      ¬ env.Holds "TENANTKV_MAX_LOCK_TTL_SECS" 0) ∧
    ((∃ t r, r.ttl? ≠ none ∧ (Gateway.ofEnvironment env).Admits t r) ↔
      ¬ env.Holds "TENANTKV_MAX_LOCK_TTL_SECS" 0) ∧
    (env.Holds "TENANTKV_MAX_LOCK_TTL_SECS" 0 → s.maxLockTtl = ⟨0⟩) := by
  have hrelay := env.sets_positive? "TENANTKV_RELAY_BUFFER" 64
  have hchannels := env.sets_positive? "TENANTKV_MAX_CHANNELS" 256
  have hcapacity := env.sets_positive? "TENANTKV_CHANNEL_CAPACITY" 1024
  have hinterval := env.sets_positive? "TENANTKV_EXPIRY_INTERVAL_MS" 100
  have hlease : (∃ ttl ≤ Span.longest, checkTtl ttl (ofEnvironment env).maxLockTtl = .ok ()) ↔
      ¬ env.Holds "TENANTKV_MAX_LOCK_TTL_SECS" 0 :=
    exists_checkTtl_iff.trans (not_congr maxLockTtl_eq_zero_iff)
  refine ⟨⟨hrelay.pos (by decide), hrelay⟩, ⟨hchannels.pos (by decide), hchannels⟩,
    ⟨hcapacity.pos (by decide), hcapacity⟩, ⟨?_, _, hinterval, expiryInterval_ofEnvironment env⟩,
    ?_, hlease, Gateway.exists_admits_lease_iff.trans hlease, maxLockTtl_eq_zero_iff.2⟩
  · rw [expiryInterval_ofEnvironment]
    exact Nat.mul_pos (hinterval.pos (by decide)) (by decide)
  · have hset : env.Sets "TENANTKV_MAX_LOCK_TTL_SECS" 3600
        ((env.parse? "TENANTKV_MAX_LOCK_TTL_SECS" wordOfText?).getD 3600) ↔
          ¬ env.Holds "TENANTKV_MAX_LOCK_TTL_SECS" 0 := Environment.sets_parse?_iff (by decide)
    rw [← hset, maxLockTtl_ofEnvironment]
    constructor
    · rintro ⟨n, hsets, heq⟩
      rwa [Nat.eq_of_mul_eq_mul_right (by decide) (congrArg Span.ns heq)]
    · exact fun hsets => ⟨_, hsets, rfl⟩

/-- Set to zero, the longest lease is neither its default nor a lease, and nobody can have one. -/
theorem zero_longest_lease :
    let env : Environment := [("TENANTKV_MAX_LOCK_TTL_SECS", Utf8.encode "0")]
    let s := ofEnvironment env
    s.maxLockTtl = ⟨0⟩ ∧ (∀ ttl, checkTtl ttl s.maxLockTtl ≠ .ok ()) ∧
      (∀ n, env.Sets "TENANTKV_MAX_LOCK_TTL_SECS" 3600 n → n = 3600 ∧ s.maxLockTtl ≠ .ofSecs n) ∧
      ∀ t r, r.ttl? ≠ none → ¬ (Gateway.ofEnvironment env).Admits t r := by
  intro env s
  have hzero : env.Holds "TENANTKV_MAX_LOCK_TTL_SECS" 0 :=
    ⟨"0", ['0'], rfl, Text.trim_eq_iff.1 (by decide), ⟨[], 0, .inl rfl, rfl⟩, by decide⟩
  have hlongest : s.maxLockTtl = ⟨0⟩ := maxLockTtl_eq_zero_iff.2 hzero
  have hnone : ∀ ttl, checkTtl ttl s.maxLockTtl ≠ .ok () := fun ttl => by
    rw [hlongest]
    exact checkTtl_zero ttl
  refine ⟨hlongest, hnone, fun n hsets => ?_, fun t r hlease hadmits => ?_⟩
  · cases hsets with
    | held hholds hpos => exact absurd (hholds.unique hzero) (Nat.ne_of_gt hpos)
    | absent _ =>
      rw [hlongest]
      exact ⟨rfl, by decide⟩
  · obtain ⟨ttl, hlease⟩ := Option.ne_none_iff_exists'.1 hlease
    exact hnone ttl (hadmits.checkTtl hlease)

end Settings

end Tenancy
