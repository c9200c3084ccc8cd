import Tenancy.Forms
import Tenancy.Proofs.Json.Form

/-!
# The domain is read back from JSON

Each form of the domain is lawful: for times that there are, counts of 64 bits and metadata that JSON
can hold, and for texts, flags and absent fields of every kind. So every tenant, token, message, audit
record, answer and health report is read back from what is written for it, and so is whatever is read
from any text (`forms_roundTrip`).
-/

namespace Tenancy

open Json Form

/-! ## Tenants and messages -/

theorem Tenant.form_lawful (depth : Nat) : Tenant.form.Lawful (depth + 1) fun _ => True where
  regular := .record (by decide) (by simp) (by simp)
  fits t _ := fits_record <| by
    rw [List.append_assoc]
    exact (text_lawful depth).filled_member trivial
      ((text_lawful depth).filled_member? (by decide) (fun _ _ => trivial) .nil)
  back t _ := by
    have huser : Form.text.get "user_id" (form.toJson t) = some t.user :=
      (text_lawful depth).get_eq trivial (by simp [form])
    have horganization : Form.text.get? "organization_id" (form.toJson t) = some t.organization :=
      (text_lawful depth).get?_eq (fun _ _ => trivial) (by simp [form])
    generalize form.toJson t = j at huser horganization
    simp [form, huser, horganization]
  good_of_fits _ _ _ _ := trivial

theorem Message.form_lawful (depth : Nat) : Message.form.Lawful (depth + 1) fun _ => True where
  regular := .record (by decide) (by simp) (by simp)
  fits m _ := fits_record <| by
    rw [List.append_assoc]
    exact (text_lawful depth).filled_member trivial ((text_lawful depth).filled_member trivial .nil)
  back m _ := by
    have hchannel : Form.text.get "channel" (form.toJson m) = some m.channel :=
      (text_lawful depth).get_eq trivial (by simp [form])
    have hpayload : Form.text.get "payload" (form.toJson m) = some m.payload :=
      (text_lawful depth).get_eq trivial (by simp [form])
    generalize form.toJson m = j at hchannel hpayload
    simp [form, hchannel, hpayload]
  good_of_fits _ _ _ _ := trivial

theorem RelayedMessage.form_lawful (depth : Nat) :
    RelayedMessage.form.Lawful (depth + 1) fun m => m.time.Proper where
  regular := .record (by decide) (by simp) (by simp)
  fits m hm := fits_record <| by
    rw [List.append_assoc, List.append_assoc]
    exact (text_lawful depth).filled_member trivial
      ((text_lawful depth).filled_member trivial ((time_lawful depth).filled_member hm .nil))
  back m hm := by
    have hchannel : Form.text.get "channel" (form.toJson m) = some m.channel :=
      (text_lawful depth).get_eq trivial (by simp [form])
    have hpayload : Form.text.get "payload" (form.toJson m) = some m.payload :=
      (text_lawful depth).get_eq trivial (by simp [form])
    have htime : Form.time.get "timestamp" (form.toJson m) = some m.time :=
      (time_lawful depth).get_eq hm (by simp [form])
    generalize form.toJson m = j at hchannel hpayload htime
    simp [form, hchannel, hpayload, htime]
  good_of_fits j m hj h := by
    rw [form, Fits] at hj
    obtain ⟨members, hfilled, rfl⟩ := hj
    obtain ⟨_, -, h⟩ := Option.bind_eq_some_iff.1 h
    obtain ⟨_, -, h⟩ := Option.bind_eq_some_iff.1 h
    obtain ⟨time, htime, h⟩ := Option.bind_eq_some_iff.1 h
    cases h
    exact (time_lawful depth).good_of_get .required (by decide) hfilled (by simp) htime

/-! ## Audit -/

namespace Audit

theorem Operation.form_lawful (depth : Nat) : Operation.form.Lawful depth fun _ => True :=
  choice_lawful depth (fun o => by cases o <;> decide) fun o p h => by
    cases o <;> cases p <;> first | rfl | exact absurd h (by decide)

/-- A record of a time that there is, with metadata that JSON can hold inside the record. -/
structure Record.Proper (depth : Nat) (r : Record) : Prop where
  metadata : Json.Proper depth r.metadata
  recordedAt : r.recordedAt.Proper

theorem Record.form_lawful (depth : Nat) : Record.form.Lawful (depth + 1) (Record.Proper depth) where
  regular := .record (by decide) (by simp [Operation.form]) (by simp)
  fits r hr := fits_record <| by
    simp only [List.append_assoc]
    exact (text_lawful depth).filled_member trivial
      ((text_lawful depth).filled_member? (by decide) (fun _ _ => trivial)
        ((Operation.form_lawful depth).filled_member trivial
          ((any_lawful depth).filled_member hr.metadata
            ((time_lawful depth).filled_member hr.recordedAt .nil))))
  back r hr := by
    have huser : Form.text.get "user_id" (form.toJson r) = some r.user :=
      (text_lawful depth).get_eq trivial (by simp [form])
    have horganization : Form.text.get? "organization_id" (form.toJson r) = some r.organization :=
      (text_lawful depth).get?_eq (fun _ _ => trivial) (by simp [form])
    have hoperation : Operation.form.get "operation" (form.toJson r) = some r.operation :=
      (Operation.form_lawful depth).get_eq trivial (by simp [form])
    have hmetadata : Form.any.get "metadata" (form.toJson r) = some r.metadata :=
      (any_lawful depth).get_eq hr.metadata (by simp [form])
    have htime : Form.time.get "recorded_at" (form.toJson r) = some r.recordedAt :=
      (time_lawful depth).get_eq hr.recordedAt (by simp [form])
    generalize form.toJson r = j at huser horganization hoperation hmetadata htime
    simp [form, huser, horganization, hoperation, hmetadata, htime]
  good_of_fits j r hj h := by
    rw [form, Fits] at hj
    obtain ⟨members, hfilled, rfl⟩ := hj
    obtain ⟨_, -, h⟩ := Option.bind_eq_some_iff.1 h
    obtain ⟨_, -, h⟩ := Option.bind_eq_some_iff.1 h
    obtain ⟨_, -, h⟩ := Option.bind_eq_some_iff.1 h
    obtain ⟨metadata, hmetadata, h⟩ := Option.bind_eq_some_iff.1 h
    obtain ⟨time, htime, h⟩ := Option.bind_eq_some_iff.1 h
    cases h
    exact ⟨(any_lawful depth).good_of_get .required (by decide) hfilled (by simp) hmetadata,
      (time_lawful depth).good_of_get .required (by decide) hfilled (by simp) htime⟩

end Audit

/-! ## Answers -/

theorem Token.form_lawful (depth : Nat) : Token.form.Lawful depth fun _ => True := text_lawful depth

theorem Lease.Grant.form_lawful (depth : Nat) :
    Lease.Grant.form.Lawful (depth + 1) fun g => ∀ t, g.expiresAt = some t → t.Proper where
  regular := .record (by decide) (by simp [Token.form]) (by simp [Token.form])
  fits g hg := fits_record <| by
    simp only [List.append_assoc]
    exact (flag_lawful depth).filled_member trivial
      ((Token.form_lawful depth).filled_member? (by decide) (fun _ _ => trivial)
        ((time_lawful depth).filled_member? (by decide) hg .nil))
  back g hg := by
    have hacquired : Form.flag.get "acquired" (form.toJson g) = some g.acquired :=
      (flag_lawful depth).get_eq trivial (by simp [form])
    have htoken : Token.form.get? "owner_token" (form.toJson g) = some g.token :=
      (Token.form_lawful depth).get?_eq (fun _ _ => trivial) (by simp [form])
    have htime : Form.time.get? "expires_at" (form.toJson g) = some g.expiresAt :=
      (time_lawful depth).get?_eq hg (by simp [form])
    generalize form.toJson g = j at hacquired htoken htime
    simp [form, hacquired, htoken, htime]
  good_of_fits j g hj h := by
    rw [form, Fits] at hj
    obtain ⟨members, hfilled, rfl⟩ := hj
    obtain ⟨_, -, h⟩ := Option.bind_eq_some_iff.1 h
    obtain ⟨_, -, h⟩ := Option.bind_eq_some_iff.1 h
    obtain ⟨time, htime, h⟩ := Option.bind_eq_some_iff.1 h
    cases h
    exact (time_lawful depth).good_of_get? .optional (by decide) hfilled (by simp) htime

theorem Lease.Renewal.form_lawful (depth : Nat) :
    Lease.Renewal.form.Lawful (depth + 1) fun r => ∀ t, r.expiresAt = some t → t.Proper where
  regular := .record (by decide) (by simp) (by simp)
  fits r hr := fits_record <| by
    rw [List.append_assoc]
    exact (flag_lawful depth).filled_member trivial
      ((time_lawful depth).filled_member? (by decide) hr .nil)
  back r hr := by
    have hrenewed : Form.flag.get "renewed" (form.toJson r) = some r.renewed :=
      (flag_lawful depth).get_eq trivial (by simp [form])
    have htime : Form.time.get? "expires_at" (form.toJson r) = some r.expiresAt :=
      (time_lawful depth).get?_eq hr (by simp [form])
    generalize form.toJson r = j at hrenewed htime
    simp [form, hrenewed, htime]
  good_of_fits j r hj h := by
    rw [form, Fits] at hj
    obtain ⟨members, hfilled, rfl⟩ := hj
    obtain ⟨_, -, h⟩ := Option.bind_eq_some_iff.1 h
    obtain ⟨time, htime, h⟩ := Option.bind_eq_some_iff.1 h
    cases h
    exact (time_lawful depth).good_of_get? .optional (by decide) hfilled (by simp) htime

theorem Lease.releaseForm_lawful (depth : Nat) :
    Lease.releaseForm.Lawful (depth + 1) fun _ => True where
  regular := .record (by decide) (by simp) (by simp)
  fits _ _ := fits_record ((flag_lawful depth).filled_member trivial .nil)
  back b _ := by
    have hreleased : Form.flag.get "released" (releaseForm.toJson b) = some b :=
      (flag_lawful depth).get_eq trivial (by simp [releaseForm])
    exact hreleased
  good_of_fits _ _ _ _ := trivial

theorem Message.publishForm_lawful (depth : Nat) :
    Message.publishForm.Lawful (depth + 1) fun n => n < 18446744073709551616 where
  regular := .record (by decide) (by simp) (by simp)
  fits _ hn := fits_record ((count_lawful depth).filled_member hn .nil)
  back n hn := by
    have hcount : Form.count.get "subscriber_count" (publishForm.toJson n) = some n :=
      (count_lawful depth).get_eq hn (by simp [publishForm])
    exact hcount
  good_of_fits j n hj h := by
    rw [publishForm, Fits] at hj
    obtain ⟨members, hfilled, rfl⟩ := hj
    exact (count_lawful depth).good_of_get .required (by decide) hfilled (by simp) h

/-! ## Health -/

theorem HealthStatus.form_lawful (depth : Nat) : HealthStatus.form.Lawful depth fun _ => True :=
  choice_lawful depth (fun s => by cases s <;> decide) fun s r h => by
    cases s <;> cases r <;> first | rfl | exact absurd h (by decide)

/-- A latency of 64 bits. -/
def ComponentHealth.Proper (c : ComponentHealth) : Prop :=
  ∀ n, c.latencyMs = some n → n < 18446744073709551616

theorem ComponentHealth.form_lawful (depth : Nat) :
    ComponentHealth.form.Lawful (depth + 1) Proper where
  regular := .record (by decide) (by simp [HealthStatus.form]) (by simp)
  fits c hc := fits_record <| by
    rw [List.append_assoc, List.append_assoc]
    exact (HealthStatus.form_lawful depth).filled_member trivial
      ((count_lawful depth).filled_member? (by decide) hc
        ((text_lawful depth).filled_member? (by decide) (fun _ _ => trivial) .nil))
  back c hc := by
    have hstatus : HealthStatus.form.get "status" (form.toJson c) = some c.status :=
      (HealthStatus.form_lawful depth).get_eq trivial (by simp [form])
    have hlatency : Form.count.get? "latency_ms" (form.toJson c) = some c.latencyMs :=
      (count_lawful depth).get?_eq hc (by simp [form])
    have herror : Form.text.get? "error" (form.toJson c) = some c.error :=
      (text_lawful depth).get?_eq (fun _ _ => trivial) (by simp [form])
    generalize form.toJson c = j at hstatus hlatency herror
    simp [form, hstatus, hlatency, herror]
  good_of_fits j c hj h := by
    rw [form, Fits] at hj
    obtain ⟨members, hfilled, rfl⟩ := hj
    obtain ⟨_, -, h⟩ := Option.bind_eq_some_iff.1 h
    obtain ⟨latency, hlatency, h⟩ := Option.bind_eq_some_iff.1 h
    obtain ⟨_, -, h⟩ := Option.bind_eq_some_iff.1 h
    cases h
    exact (count_lawful depth).good_of_get? .optional (by decide) hfilled (by simp) hlatency

/-- Counts of 64 bits. -/
structure HealthDetails.Proper (d : HealthDetails) : Prop where
  store : d.store.Proper
  uptimeSeconds : d.uptimeSeconds < 18446744073709551616

theorem HealthDetails.form_lawful (depth : Nat) : HealthDetails.form.Lawful (depth + 2) Proper where
  regular := .record (by decide) (by simp [(ComponentHealth.form_lawful depth).regular]) (by simp)
  fits d hd := fits_record <| by
    rw [List.append_assoc, List.append_assoc]
    exact (ComponentHealth.form_lawful depth).filled_member hd.store
      ((text_lawful (depth + 1)).filled_member trivial
        ((count_lawful (depth + 1)).filled_member hd.uptimeSeconds .nil))
  back d hd := by
    have hstore : ComponentHealth.form.get "store" (form.toJson d) = some d.store :=
      (ComponentHealth.form_lawful depth).get_eq hd.store (by simp [form])
    have hversion : Form.text.get "version" (form.toJson d) = some d.version :=
      (text_lawful depth).get_eq trivial (by simp [form])
    have huptime : Form.count.get "uptime_seconds" (form.toJson d) = some d.uptimeSeconds :=
      (count_lawful depth).get_eq hd.uptimeSeconds (by simp [form])
    generalize form.toJson d = j at hstore hversion huptime
    simp [form, hstore, hversion, huptime]
  good_of_fits j d hj h := by
    rw [form, Fits] at hj
    obtain ⟨members, hfilled, rfl⟩ := hj
    obtain ⟨store, hstore, h⟩ := Option.bind_eq_some_iff.1 h
    obtain ⟨_, -, h⟩ := Option.bind_eq_some_iff.1 h
    obtain ⟨uptime, huptime, h⟩ := Option.bind_eq_some_iff.1 h
    cases h
    exact ⟨(ComponentHealth.form_lawful depth).good_of_get .required (by decide) hfilled (by simp) hstore,
      (count_lawful (depth + 1)).good_of_get .required (by decide) hfilled (by simp) huptime⟩

theorem Health.form_lawful (depth : Nat) :
    Health.form.Lawful (depth + 3) fun h => ∀ d, h.details = some d → d.Proper where
  regular := .record (by decide)
    (by simp [HealthStatus.form, (HealthDetails.form_lawful depth).regular])
    (by simp [HealthStatus.form, HealthDetails.form])
  fits h hh := fits_record <| by
    rw [List.append_assoc, List.append_assoc]
    exact (HealthStatus.form_lawful (depth + 2)).filled_member trivial
      ((text_lawful (depth + 2)).filled_member? (by decide) (fun _ _ => trivial)
        ((HealthDetails.form_lawful depth).filled_member? (by decide) hh .nil))
  back h hh := by
    have hstatus : HealthStatus.form.get "status" (form.toJson h) = some h.status :=
      (HealthStatus.form_lawful depth).get_eq trivial (by simp [form])
    have hmessage : Form.text.get? "message" (form.toJson h) = some h.message :=
      (text_lawful depth).get?_eq (fun _ _ => trivial) (by simp [form])
    have hdetails : HealthDetails.form.get? "details" (form.toJson h) = some h.details :=
      (HealthDetails.form_lawful depth).get?_eq hh (by simp [form])
    generalize form.toJson h = j at hstatus hmessage hdetails
    simp [form, hstatus, hmessage, hdetails]
  good_of_fits j h hj hread := by
    rw [form, Fits] at hj
    obtain ⟨members, hfilled, rfl⟩ := hj
    obtain ⟨_, -, hread⟩ := Option.bind_eq_some_iff.1 hread
    obtain ⟨_, -, hread⟩ := Option.bind_eq_some_iff.1 hread
    obtain ⟨details, hdetails, hread⟩ := Option.bind_eq_some_iff.1 hread
    cases hread
    exact (HealthDetails.form_lawful depth).good_of_get? .optional (by decide) hfilled (by simp) hdetails

/-- Every value of the domain is read back from its JSON text, whatever its texts are and whichever
fields are absent, as long as its times are times that there are, its counts have 64 bits and its
metadata can be held inside a record; and whatever is read from any text is read back once more. That
includes numbers in metadata that are no integers, but only as the characters that wrote them. -/
theorem forms_roundTrip :
    Tenant.form.RoundTrips (fun _ => True)
      ∧ Token.form.RoundTrips (fun _ => True)
      ∧ Message.form.RoundTrips (fun _ => True)
      ∧ RelayedMessage.form.RoundTrips (fun m => m.time.Proper)
      ∧ Audit.Operation.form.RoundTrips (fun _ => True)
      ∧ Audit.Record.form.RoundTrips (Audit.Record.Proper 126)
      ∧ Lease.Grant.form.RoundTrips (fun g => ∀ t, g.expiresAt = some t → t.Proper)
      ∧ Lease.releaseForm.RoundTrips (fun _ => True)
      ∧ Lease.Renewal.form.RoundTrips (fun r => ∀ t, r.expiresAt = some t → t.Proper)
      ∧ Message.publishForm.RoundTrips (fun n => n < 18446744073709551616)
      ∧ ComponentHealth.form.RoundTrips ComponentHealth.Proper
      ∧ HealthDetails.form.RoundTrips HealthDetails.Proper
      ∧ Health.form.RoundTrips (fun h => ∀ d, h.details = some d → d.Proper) :=
  ⟨(Tenant.form_lawful 126).roundTrips, (Token.form_lawful 127).roundTrips,
    (Message.form_lawful 126).roundTrips, (RelayedMessage.form_lawful 126).roundTrips,
    (Audit.Operation.form_lawful 127).roundTrips, (Audit.Record.form_lawful 126).roundTrips,
    (Lease.Grant.form_lawful 126).roundTrips, (Lease.releaseForm_lawful 126).roundTrips,
    (Lease.Renewal.form_lawful 126).roundTrips, (Message.publishForm_lawful 126).roundTrips,
    (ComponentHealth.form_lawful 126).roundTrips, (HealthDetails.form_lawful 125).roundTrips,
    (Health.form_lawful 124).roundTrips⟩

/-- A lease that ends at the last time there is, and a record of it for a tenant whose organization is
the empty text. -/
theorem forms_roundTrip_last :
    Lease.Renewal.form.read (Lease.Renewal.form.write ⟨true, some Timestamp.last⟩) =
        .ok ⟨true, some Timestamp.last⟩
      ∧ Audit.Record.form.read (Audit.Record.form.write
          ⟨"u\n", some "", .renewLock, .list [.null, .object [("ttl", .int 60000)]], Timestamp.last⟩) =
        .ok ⟨"u\n", some "", .renewLock, .list [.null, .object [("ttl", .int 60000)]], Timestamp.last⟩ := by
  have hlast : Timestamp.last.Proper := ⟨by decide, by decide, by decide⟩
  have hmetadata : Json.Proper 126 (.list [.null, .object [("ttl", .int 60000)]]) :=
    .list (List.forall_mem_cons.2 ⟨.null, List.forall_mem_singleton.2
      (.object (List.pairwise_singleton _ _) (List.forall_mem_singleton.2 (.int (by decide) (by decide))))⟩)
  obtain ⟨-, -, -, -, -, hrecord, -, -, hrenewal, -⟩ := forms_roundTrip
  refine ⟨hrenewal.read_write _ ?_, hrecord.read_write _ ⟨hmetadata, hlast⟩⟩
  rintro t ⟨⟩
  exact hlast

end Tenancy
