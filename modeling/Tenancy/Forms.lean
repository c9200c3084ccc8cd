import Tenancy.Audit
import Tenancy.Health.Basic
import Tenancy.Json.Form
import Tenancy.Lease
import Tenancy.Message

/-!
# JSON forms of the domain

How tenants, tokens, messages, audit records, answers and health reports are written as JSON. An
absent organization, token, time or detail is left out.
-/

namespace Tenancy

open Json (Form)

def Tenant.form : Form Tenant where
  shape := .record [Form.text.field "user_id" .required, Form.text.field "organization_id" .defaulted]
  toJson t :=
    .object (Form.text.member "user_id" t.user ++ Form.text.member? "organization_id" t.organization)
  ofJson? j := do
    some ⟨← Form.text.get "user_id" j, ← Form.text.get? "organization_id" j⟩

/-- A token is its text. -/
def Token.form : Form String := Form.text

def Message.form : Form Message where
  shape := .record [Form.text.field "channel" .required, Form.text.field "payload" .required]
  toJson m := .object (Form.text.member "channel" m.channel ++ Form.text.member "payload" m.payload)
  ofJson? j := do some ⟨← Form.text.get "channel" j, ← Form.text.get "payload" j⟩

def RelayedMessage.form : Form RelayedMessage where
  shape := .record
    [Form.text.field "channel" .required, Form.text.field "payload" .required,
     Form.time.field "timestamp" .required]
  toJson m := .object
    (Form.text.member "channel" m.channel ++ Form.text.member "payload" m.payload
      ++ Form.time.member "timestamp" m.time)
  ofJson? j := do
    some ⟨← Form.text.get "channel" j, ← Form.text.get "payload" j, ← Form.time.get "timestamp" j⟩

/-! ## Audit -/

def Audit.Operation.form : Form Audit.Operation := Form.choice Operation.name Operation.all

def Audit.Record.form : Form Audit.Record where
  shape := .record
    [Form.text.field "user_id" .required, Form.text.field "organization_id" .defaulted,
     Operation.form.field "operation" .required, Form.any.field "metadata" .required,
     Form.time.field "recorded_at" .required]
  toJson r := .object
    (Form.text.member "user_id" r.user ++ Form.text.member? "organization_id" r.organization
      ++ Operation.form.member "operation" r.operation ++ Form.any.member "metadata" r.metadata
      ++ Form.time.member "recorded_at" r.recordedAt)
  ofJson? j := do
    some ⟨← Form.text.get "user_id" j, ← Form.text.get? "organization_id" j,
      ← Operation.form.get "operation" j, ← Form.any.get "metadata" j,
      ← Form.time.get "recorded_at" j⟩

/-! ## Answers -/

def Lease.Grant.form : Form Lease.Grant where
  shape := .record
    [Form.flag.field "acquired" .required, Token.form.field "owner_token" .optional,
     Form.time.field "expires_at" .optional]
  toJson g := .object
    (Form.flag.member "acquired" g.acquired ++ Token.form.member? "owner_token" g.token
      ++ Form.time.member? "expires_at" g.expiresAt)
  ofJson? j := do
    some ⟨← Form.flag.get "acquired" j, ← Token.form.get? "owner_token" j,
      ← Form.time.get? "expires_at" j⟩

def Lease.Renewal.form : Form Lease.Renewal where
  shape := .record [Form.flag.field "renewed" .required, Form.time.field "expires_at" .optional]
  toJson r := .object
    (Form.flag.member "renewed" r.renewed ++ Form.time.member? "expires_at" r.expiresAt)
  ofJson? j := do some ⟨← Form.flag.get "renewed" j, ← Form.time.get? "expires_at" j⟩

/-- Whether a lock was released. -/
def Lease.releaseForm : Form Bool where
  shape := .record [Form.flag.field "released" .required]
  toJson b := .object (Form.flag.member "released" b)
  ofJson? j := Form.flag.get "released" j

/-- How many subscribers a message reached. -/
def Message.publishForm : Form Nat where
  shape := .record [Form.count.field "subscriber_count" .required]
  toJson n := .object (Form.count.member "subscriber_count" n)
  ofJson? j := Form.count.get "subscriber_count" j

/-! ## Health -/

def HealthStatus.form : Form HealthStatus := Form.choice name all

def ComponentHealth.form : Form ComponentHealth where
  shape := .record
    [HealthStatus.form.field "status" .required, Form.count.field "latency_ms" .optional,
     Form.text.field "error" .optional]
  toJson c := .object
    (HealthStatus.form.member "status" c.status ++ Form.count.member? "latency_ms" c.latencyMs
      ++ Form.text.member? "error" c.error)
  ofJson? j := do
    some ⟨← HealthStatus.form.get "status" j, ← Form.count.get? "latency_ms" j,
      ← Form.text.get? "error" j⟩

def HealthDetails.form : Form HealthDetails where
  shape := .record
    [ComponentHealth.form.field "store" .required, Form.text.field "version" .required,
     Form.count.field "uptime_seconds" .required]
  toJson d := .object
    (ComponentHealth.form.member "store" d.store ++ Form.text.member "version" d.version
      ++ Form.count.member "uptime_seconds" d.uptimeSeconds)
  ofJson? j := do
    some ⟨← ComponentHealth.form.get "store" j, ← Form.text.get "version" j,
      ← Form.count.get "uptime_seconds" j⟩

def Health.form : Form Health where
  shape := .record
    [HealthStatus.form.field "status" .required, Form.text.field "message" .optional,
     HealthDetails.form.field "details" .optional]
  toJson h := .object
    (HealthStatus.form.member "status" h.status ++ Form.text.member? "message" h.message
      ++ HealthDetails.form.member? "details" h.details)
  ofJson? j := do
    some ⟨← HealthStatus.form.get "status" j, ← Form.text.get? "message" j,
      ← HealthDetails.form.get? "details" j⟩

end Tenancy
