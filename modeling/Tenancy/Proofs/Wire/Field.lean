import Mathlib.Algebra.Group.Nat.Defs
import Tenancy.Wire.Codec

/-!
# Fields are read back

A run of fields is read back from its bytes, whatever its numbers and values are
(`Fields.decode?_encode`), as long as the reader knows the kinds of its fields and each text is
shorter than `2 ^ 64` bytes. What the last field under a number holds is then a matter of lists:
`Fields.last?_append` and one equation for each way to build fields.
-/

namespace Tenancy.Wire

open Utf8 (Bytes)

/-! ## Keys -/

/-- The numbers that a key of 32 bits has room for. -/
def IsNumber (n : Nat) : Prop := 0 < n ∧ n < 2 ^ 29

instance (n : Nat) : Decidable (IsNumber n) := inferInstanceAs (Decidable (_ ∧ _))

theorem Form.code_lt (f : Form) : f.code < 8 := by
  cases f <;> decide

theorem Form.ofCode?_code (f : Form) : Form.ofCode? f.code = some f := by
  cases f <;> rfl

theorem readKey?_keyBytes {n : Nat} (hn : IsNumber n) (f : Form) (rest : Bytes) :
    readKey? (keyBytes n f ++ rest) = some (n, f, rest) := by
  obtain ⟨hpos, hlt⟩ := hn
  have hcode := f.code_lt
  have hsize : 8 * n + f.code < UInt32.size := by
    have h32 : UInt32.size = 8 * 2 ^ 29 := rfl
    omega
  have hword : 8 * n + f.code < UInt64.size := Nat.lt_trans hsize (by decide)
  have hmod : (8 * n + f.code) % 8 = f.code := by omega
  have hdiv : (8 * n + f.code) / 8 = n := by omega
  rw [readKey?, keyBytes, Varint.read?_encode hword]
  simp only [Option.bind_eq_bind, Option.bind_some, hmod, hdiv, Form.ofCode?_code]
  exact if_pos ⟨hsize, Nat.ne_of_gt hpos⟩

theorem keyBytes_ne_nil (n : Nat) (f : Form) : keyBytes n f ≠ [] := by
  unfold keyBytes Varint.encode Varint.limit Varint.encodeIn
  split <;> exact List.cons_ne_nil _ _

/-! ## Values -/

theorem cut?_append (bytes rest : Bytes) :
    cut? bytes.length (bytes ++ rest) = some (bytes, rest) := by
  have hle : bytes.length ≤ (bytes ++ rest).length := by simp
  rw [cut?, if_pos hle, List.splitAt_eq, List.take_left, List.drop_left]

namespace Value

/-- The length of a text is a word of 64 bits. -/
def Fits : Value → Prop
  | .text s => Utf8.size s < UInt64.size
  | .int _ | .flag _ => True

instance : (v : Value) → Decidable v.Fits
  | .text s => inferInstanceAs (Decidable (Utf8.size s < UInt64.size))
  | .int _ | .flag _ => .isTrue trivial

theorem read?_bytes {v : Value} (hv : v.Fits) (rest : Bytes) :
    read? v.kind v.form (v.bytes ++ rest) = some (v, rest) := by
  cases v with
  | text s =>
    have hcut : cutDelimited? (Value.bytes (.text s) ++ rest) = some (Utf8.encode s, rest) := by
      rw [cutDelimited?, Value.bytes, List.append_assoc, Varint.read?_encode hv]
      exact cut?_append (Utf8.encode s) rest
    simp only [kind, form, read?, hcut, Option.bind_eq_bind, Option.bind_some, Utf8.decode_encode]
  | int n =>
    have hword : UInt64.ofNat n.toUInt64.toNat = n.toUInt64 := UInt64.ofNat_toNat
    rw [kind, form, read?, Value.bytes, Varint.read?_encode n.toUInt64.toNat_lt]
    simp only [Option.map_some, hword]
    rfl
  | flag b =>
    have hbit : (if b then 1 else 0) < UInt64.size := by cases b <;> decide
    rw [kind, form, read?, Value.bytes, Varint.read?_encode hbit]
    cases b <;> rfl

end Value

/-! ## Runs of fields -/

namespace Fields

/-- The field has a number, and a value of the kind that the reader expects there. -/
structure Known (kind? : Nat → Option Kind) (f : Nat × Value) : Prop where
  number : IsNumber f.1
  kind : kind? f.1 = some f.2.kind

theorem encode_cons (f : Nat × Value) (fs : Fields) :
    encode (f :: fs) = keyBytes f.1 f.2.form ++ (f.2.bytes ++ encode fs) := by
  rw [encode, List.flatMap_cons, List.append_assoc]
  rfl

theorem encode_append (as bs : Fields) : encode (as ++ bs) = encode as ++ encode bs :=
  List.flatMap_append

/-- Every field takes a byte at least, so there are never more fields than bytes. -/
theorem length_le_encode (fs : Fields) : fs.length ≤ (encode fs).length := by
  induction fs with
  | nil => exact Nat.zero_le _
  | cons f fs ih =>
    have hkey := List.length_pos_iff.2 (keyBytes_ne_nil f.1 f.2.form)
    rw [encode_cons, List.length_append, List.length_append, List.length_cons]
    omega

theorem readIn?_encode {kind? : Nat → Option Kind} {fs : Fields} (hk : ∀ f ∈ fs, Known kind? f)
    (hv : ∀ f ∈ fs, f.2.Fits) {fuel : Nat} (hfuel : fs.length ≤ fuel) :
    readIn? kind? fuel (encode fs) = some fs := by
  induction fs generalizing fuel with
  | nil => cases fuel <;> rfl
  | cons f fs ih =>
    obtain ⟨hf, hfs⟩ := List.forall_mem_cons.1 hk
    obtain ⟨hfit, hfits⟩ := List.forall_mem_cons.1 hv
    cases fuel with
    | zero => exact absurd hfuel (Nat.not_succ_le_zero _)
    | succ fuel =>
      have htail := ih hfs hfits (Nat.le_of_succ_le_succ hfuel)
      have hkey := readKey?_keyBytes hf.number f.2.form (f.2.bytes ++ encode fs)
      rw [← encode_cons] at hkey
      -- the reader looks whether anything is left before it reads a key
      cases hbytes : encode (f :: fs) with
      | nil =>
        have hpos := length_le_encode (f :: fs)
        rw [hbytes] at hpos
        exact absurd hpos (Nat.not_succ_le_zero _)
      | cons b bytes =>
        rw [hbytes] at hkey
        simp only [readIn?, hkey, Option.bind_eq_bind, Option.bind_some, hf.kind,
          Value.read?_bytes hfit, htail]

theorem decode?_encode {kind? : Nat → Option Kind} {fs : Fields} (hk : ∀ f ∈ fs, Known kind? f)
    (hv : ∀ f ∈ fs, f.2.Fits) : decode? kind? (encode fs) = some fs :=
  readIn?_encode hk hv (length_le_encode fs)

/-! ### Fields that are known -/

section

variable {kind? : Nat → Option Kind} {n : Nat} (hn : IsNumber n)

include hn

theorem known_ofText (hk : kind? n = some .text) (s : String) :
    ∀ f ∈ ofText n s, Known kind? f := by
  unfold ofText
  split
  · exact fun f hf => nomatch hf
  · exact List.forall_mem_singleton.2 ⟨hn, hk⟩

theorem known_ofInt (hk : kind? n = some .int) (i : Int64) : ∀ f ∈ ofInt n i, Known kind? f := by
  unfold ofInt
  split
  · exact fun f hf => nomatch hf
  · exact List.forall_mem_singleton.2 ⟨hn, hk⟩

theorem known_ofInt? (hk : kind? n = some .int) (i : Option Int64) :
    ∀ f ∈ ofInt? n i, Known kind? f := by
  intro f hf
  obtain ⟨i, -, rfl⟩ := List.mem_map.1 hf
  exact ⟨hn, hk⟩

theorem known_ofFlag (hk : kind? n = some .flag) (b : Bool) : ∀ f ∈ ofFlag n b, Known kind? f := by
  unfold ofFlag
  split
  · exact List.forall_mem_singleton.2 ⟨hn, hk⟩
  · exact fun f hf => nomatch hf

theorem known_ofTexts (hk : kind? n = some .text) (ss : List String) :
    ∀ f ∈ ofTexts n ss, Known kind? f := by
  intro f hf
  obtain ⟨s, -, rfl⟩ := List.mem_map.1 hf
  exact ⟨hn, hk⟩

end

/-! ## Looking fields up -/

section

variable {α : Type} {pick : Value → Option α}

@[simp]
theorem last?_append (as bs : Fields) (number : Nat) :
    last? pick (as ++ bs) number = (last? pick bs number).or (last? pick as number) := by
  rw [last?, List.filterMap_append, List.getLast?_append]
  rfl

theorem last?_singleton (n number : Nat) (v : Value) :
    last? pick [(n, v)] number = if n = number then pick v else none := by
  by_cases hn : n = number
  · cases hv : pick v <;> simp [last?, hn, hv]
  · simp [last?, hn]

/-- What is written of a plain field: nothing if it has the empty value. -/
def written {β : Type} [DecidableEq β] (empty value : β) : Option β :=
  if value = empty then none else some value

@[simp]
theorem last?_ofText (n number : Nat) (s : String) :
    last? pick (ofText n s) number =
      if n = number then (written "" s).bind (pick <| .text ·) else none := by
  by_cases hs : s = ""
  · simp [ofText, written, hs, last?]
  · simp [ofText, written, hs, last?_singleton]

@[simp]
theorem last?_ofInt (n number : Nat) (i : Int64) :
    last? pick (ofInt n i) number =
      if n = number then (written 0 i).bind (pick <| .int ·) else none := by
  by_cases hi : i = 0
  · simp [ofInt, written, hi, last?]
  · simp [ofInt, written, hi, last?_singleton]

@[simp]
theorem last?_ofInt? (n number : Nat) (i : Option Int64) :
    last? pick (ofInt? n i) number = if n = number then i.bind (pick <| .int ·) else none := by
  cases i with
  | none => simp [ofInt?, last?]
  | some i => simp [ofInt?, last?_singleton]

@[simp]
theorem last?_ofFlag (n number : Nat) (b : Bool) :
    last? pick (ofFlag n b) number =
      if n = number then (written false b).bind (pick <| .flag ·) else none := by
  cases b with
  | false => simp [ofFlag, written, last?]
  | true => simp [ofFlag, written, last?_singleton]

end

@[simp]
theorem texts_append (as bs : Fields) (number : Nat) :
    texts (as ++ bs) number = texts as number ++ texts bs number := List.filterMap_append

@[simp]
theorem texts_ofTexts (n : Nat) (ss : List String) : texts (ofTexts n ss) n = ss := by
  have hkeep : (fun s : String => if n = n then some s else none) = some := funext fun _ => if_pos rfl
  rw [texts, ofTexts, List.filterMap_map]
  exact (congrArg (List.filterMap · ss) hkeep).trans List.filterMap_some

/-! ## Writing one after the other -/

/-- The value of a plain field that is written for two messages, one after the other: the second
counts, unless it is the empty value, which is not written. -/
def later {β : Type} [DecidableEq β] (empty first second : β) : β :=
  if second = empty then first else second

@[simp]
theorem later_empty {β : Type} [DecidableEq β] (empty value : β) : later empty empty value = value := by
  unfold later
  split
  · rename_i h
    exact h.symm
  · rfl

@[simp]
theorem getD_written {β : Type} [DecidableEq β] (empty first second : β) :
    (written empty second).getD first = later empty first second := by
  unfold written later
  split <;> rfl

end Fields

/-! ## Codecs -/

namespace Codec

variable {α : Type}

/-- The length of every text in the message is a word of 64 bits. -/
def Fits (c : Codec α) (m : α) : Prop := ∀ f ∈ c.fields m, f.2.Fits

instance (c : Codec α) (m : α) : Decidable (c.Fits m) :=
  inferInstanceAs (Decidable (∀ f ∈ c.fields m, f.2.Fits))

/-- The fields of a codec are of the kinds that it names, and stand for the message that they are
written for; those of two messages stand for their merge. -/
structure Lawful (c : Codec α) (merge : α → α → α) : Prop where
  known : ∀ m, ∀ f ∈ c.fields m, Fields.Known c.kind? f
  back : ∀ m, c.ofFields (c.fields m) = m
  both : ∀ a b, c.ofFields (c.fields a ++ c.fields b) = merge a b

/-- What is written of a message is read as that message, and what is written of two messages, one
after the other, is read as their merge. -/
structure Faithful (c : Codec α) (merge : α → α → α) : Prop where
  decode?_encode : ∀ m, c.Fits m → c.decode? (c.encode m) = some m
  decode?_append : ∀ a b, c.Fits a → c.Fits b →
    c.decode? (c.encode a ++ c.encode b) = some (merge a b)

theorem Lawful.faithful {c : Codec α} {merge : α → α → α} (h : c.Lawful merge) :
    c.Faithful merge where
  decode?_encode m hm := by
    rw [decode?, encode, Fields.decode?_encode (h.known m) hm, Option.map_some, h.back]
  decode?_append a b ha hb := by
    have hknown := List.forall_mem_append.2 ⟨h.known a, h.known b⟩
    have hfits := List.forall_mem_append.2 ⟨ha, hb⟩
    rw [decode?, encode, encode, ← Fields.encode_append, Fields.decode?_encode hknown hfits,
      Option.map_some, h.both]

end Codec

end Tenancy.Wire
