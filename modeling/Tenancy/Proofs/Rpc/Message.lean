import Tenancy.Proofs.Wire.Field
import Tenancy.Rpc.Message

/-!
# Messages on the wire

Every message of the remote interface is read back from its bytes, and the bytes of two messages of
one type, one after the other, are read as their merge (`Rpc.messages_faithful`). A merge takes each
plain field from the second message unless it is empty there, each optional field from the second
unless it is unset there, and joins lists.
-/

namespace Tenancy.Rpc

open Wire Fields

/-! ## Merges -/

def AcquireLockRequest.merge (a b : AcquireLockRequest) : AcquireLockRequest where
  key := later "" a.key b.key
  ttlMs := later 0 a.ttlMs b.ttlMs

def AcquireLockResponse.merge (a b : AcquireLockResponse) : AcquireLockResponse where
  acquired := later false a.acquired b.acquired
  ownerToken := later "" a.ownerToken b.ownerToken
  expiresAt := b.expiresAt.or a.expiresAt

def ReleaseLockRequest.merge (a b : ReleaseLockRequest) : ReleaseLockRequest where
  key := later "" a.key b.key
  ownerToken := later "" a.ownerToken b.ownerToken

def ReleaseLockResponse.merge (a b : ReleaseLockResponse) : ReleaseLockResponse where
  released := later false a.released b.released

def RenewLockRequest.merge (a b : RenewLockRequest) : RenewLockRequest where
  key := later "" a.key b.key
  ownerToken := later "" a.ownerToken b.ownerToken
  ttlMs := later 0 a.ttlMs b.ttlMs

def RenewLockResponse.merge (a b : RenewLockResponse) : RenewLockResponse where
  renewed := later false a.renewed b.renewed
  expiresAt := b.expiresAt.or a.expiresAt

def PublishRequest.merge (a b : PublishRequest) : PublishRequest where
  channel := later "" a.channel b.channel
  message := later "" a.message b.message

def PublishResponse.merge (a b : PublishResponse) : PublishResponse where
  subscriberCount := later 0 a.subscriberCount b.subscriberCount

def SubscribeRequest.merge (a b : SubscribeRequest) : SubscribeRequest where
  channels := a.channels ++ b.channels

def SubscribeMessage.merge (a b : SubscribeMessage) : SubscribeMessage where
  channel := later "" a.channel b.channel
  message := later "" a.message b.message
  timestamp := later 0 a.timestamp b.timestamp

/-! ## Laws -/

theorem AcquireLockRequest.codec_lawful : codec.Lawful merge where
  known m := List.forall_mem_append.2
    ⟨known_ofText (by decide) rfl m.key, known_ofInt (by decide) rfl m.ttlMs⟩
  back m := by simp [codec, text, int, int?]
  both a b := by simp [codec, text, int, int?, merge]

theorem AcquireLockResponse.codec_lawful : codec.Lawful merge where
  known m := List.forall_mem_append.2
    ⟨List.forall_mem_append.2
      ⟨known_ofFlag (by decide) rfl m.acquired, known_ofText (by decide) rfl m.ownerToken⟩,
      known_ofInt? (by decide) rfl m.expiresAt⟩
  back m := by simp [codec, flag, text, int?]
  both a b := by simp [codec, flag, text, int?, merge]

theorem ReleaseLockRequest.codec_lawful : codec.Lawful merge where
  known m := List.forall_mem_append.2
    ⟨known_ofText (by decide) rfl m.key, known_ofText (by decide) rfl m.ownerToken⟩
  back m := by simp [codec, text]
  both a b := by simp [codec, text, merge]

theorem ReleaseLockResponse.codec_lawful : codec.Lawful merge where
  known m := known_ofFlag (by decide) rfl m.released
  back m := by simp [codec, flag]
  both a b := by simp [codec, flag, merge]

theorem RenewLockRequest.codec_lawful : codec.Lawful merge where
  known m := List.forall_mem_append.2
    ⟨List.forall_mem_append.2
      ⟨known_ofText (by decide) rfl m.key, known_ofText (by decide) rfl m.ownerToken⟩,
      known_ofInt (by decide) rfl m.ttlMs⟩
  back m := by simp [codec, text, int, int?]
  both a b := by simp [codec, text, int, int?, merge]

theorem RenewLockResponse.codec_lawful : codec.Lawful merge where
  known m := List.forall_mem_append.2
    ⟨known_ofFlag (by decide) rfl m.renewed, known_ofInt? (by decide) rfl m.expiresAt⟩
  back m := by simp [codec, flag, int?]
  both a b := by simp [codec, flag, int?, merge]

theorem PublishRequest.codec_lawful : codec.Lawful merge where
  known m := List.forall_mem_append.2
    ⟨known_ofText (by decide) rfl m.channel, known_ofText (by decide) rfl m.message⟩
  back m := by simp [codec, text]
  both a b := by simp [codec, text, merge]

theorem PublishResponse.codec_lawful : codec.Lawful merge where
  known m := known_ofInt (by decide) rfl m.subscriberCount
  back m := by simp [codec, int, int?]
  both a b := by simp [codec, int, int?, merge]

theorem SubscribeRequest.codec_lawful : codec.Lawful merge where
  known m := known_ofTexts (by decide) rfl m.channels
  back m := by simp [codec]
  both a b := by simp [codec, merge]

theorem SubscribeMessage.codec_lawful : codec.Lawful merge where
  known m := List.forall_mem_append.2
    ⟨List.forall_mem_append.2
      ⟨known_ofText (by decide) rfl m.channel, known_ofText (by decide) rfl m.message⟩,
      known_ofInt (by decide) rfl m.timestamp⟩
  back m := by simp [codec, text, int, int?]
  both a b := by simp [codec, text, int, int?, merge]

/-- An optional number takes bytes whenever it is there. -/
theorem encode_ofInt?_zero_ne (as : Fields) (number : Nat) :
    (as ++ ofInt? number (some 0)).encode ≠ (as ++ ofInt? number none).encode := by
  rw [encode_append, encode_append]
  intro h
  have hnil := List.append_cancel_left h
  have hlen := length_le_encode (ofInt? number (some 0))
  rw [hnil] at hlen
  exact Nat.not_succ_le_zero 0 hlen

/-- Each message is read back from its bytes, whatever its texts and numbers are and whichever fields
are empty or unset, as long as its texts are shorter than `2 ^ 64` bytes. The bytes of two messages
of one type are read as their merge. An optional time of zero is written, so it is told from one that
is unset. -/
theorem messages_faithful :
    AcquireLockRequest.codec.Faithful AcquireLockRequest.merge
      ∧ AcquireLockResponse.codec.Faithful AcquireLockResponse.merge
      ∧ ReleaseLockRequest.codec.Faithful ReleaseLockRequest.merge
      ∧ ReleaseLockResponse.codec.Faithful ReleaseLockResponse.merge
      ∧ RenewLockRequest.codec.Faithful RenewLockRequest.merge
      ∧ RenewLockResponse.codec.Faithful RenewLockResponse.merge
      ∧ PublishRequest.codec.Faithful PublishRequest.merge
      ∧ PublishResponse.codec.Faithful PublishResponse.merge
      ∧ SubscribeRequest.codec.Faithful SubscribeRequest.merge
      ∧ SubscribeMessage.codec.Faithful SubscribeMessage.merge
      ∧ (∀ m : AcquireLockResponse, AcquireLockResponse.codec.encode { m with expiresAt := some 0 } ≠
          AcquireLockResponse.codec.encode { m with expiresAt := none })
      ∧ ∀ m : RenewLockResponse, RenewLockResponse.codec.encode { m with expiresAt := some 0 } ≠
          RenewLockResponse.codec.encode { m with expiresAt := none } :=
  ⟨AcquireLockRequest.codec_lawful.faithful, AcquireLockResponse.codec_lawful.faithful,
    ReleaseLockRequest.codec_lawful.faithful, ReleaseLockResponse.codec_lawful.faithful,
    RenewLockRequest.codec_lawful.faithful, RenewLockResponse.codec_lawful.faithful,
    PublishRequest.codec_lawful.faithful, PublishResponse.codec_lawful.faithful,
    SubscribeRequest.codec_lawful.faithful, SubscribeMessage.codec_lawful.faithful,
    fun m => encode_ofInt?_zero_ne (ofFlag 1 m.acquired ++ ofText 2 m.ownerToken) 3,
    fun m => encode_ofInt?_zero_ne (ofFlag 1 m.renewed) 2⟩

/-- A negative number, a time of zero over another time, and channels without a name. -/
theorem messages_faithful_corners :
    (AcquireLockRequest.codec.Fits ⟨"ключ", -1⟩ ∧
        AcquireLockRequest.codec.decode? (AcquireLockRequest.codec.encode ⟨"ключ", -1⟩) =
          some ⟨"ключ", -1⟩)
      ∧ (RenewLockResponse.codec.Fits ⟨true, some 7⟩ ∧ RenewLockResponse.codec.Fits ⟨false, some 0⟩ ∧
        RenewLockResponse.codec.decode? (RenewLockResponse.codec.encode ⟨true, some 7⟩ ++
          RenewLockResponse.codec.encode ⟨false, some 0⟩) = some ⟨true, some 0⟩)
      ∧ (SubscribeRequest.codec.Fits ⟨["", "a"]⟩ ∧ SubscribeRequest.codec.Fits ⟨[""]⟩ ∧
        SubscribeRequest.codec.decode? (SubscribeRequest.codec.encode ⟨["", "a"]⟩ ++
          SubscribeRequest.codec.encode ⟨[""]⟩) = some ⟨["", "a", ""]⟩) := by
  obtain ⟨hrequest, -, -, -, -, hrenewal, -, -, hchannels, -⟩ := messages_faithful
  have hkey : AcquireLockRequest.codec.Fits ⟨"ключ", -1⟩ := by decide +kernel
  have hfirst : RenewLockResponse.codec.Fits ⟨true, some 7⟩ := by decide +kernel
  have hsecond : RenewLockResponse.codec.Fits ⟨false, some 0⟩ := by decide +kernel
  have hnames : SubscribeRequest.codec.Fits ⟨["", "a"]⟩ := by decide +kernel
  have hname : SubscribeRequest.codec.Fits ⟨[""]⟩ := by decide +kernel
  exact ⟨⟨hkey, hrequest.decode?_encode _ hkey⟩,
    ⟨hfirst, hsecond, hrenewal.decode?_append _ _ hfirst hsecond⟩,
    ⟨hnames, hname, hchannels.decode?_append _ _ hnames hname⟩⟩

end Tenancy.Rpc
