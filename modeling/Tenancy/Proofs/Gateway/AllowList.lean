import Mathlib.Data.Fintype.EquivFin
import Mathlib.Data.String.Basic
import Tenancy.Gateway.Basic
import Tenancy.Proofs.Text.Items

/-!
# Who is on the allow-list

The environment names the users that may call, as bytes. Where these are a text that names anybody,
the gateway lets in who is named, and nobody else (`Gateway.allow_list_law`). Bytes that are no text
count as if nothing were set, and then everybody who has an id is let in.
-/

namespace Tenancy

/-- The bytes of a variable, if it is set. -/
def Environment.bytes? (env : Environment) (name : String) : Option Utf8.Bytes :=
  (env.find? (·.1 = name)).map (·.2)

theorem Environment.text?_eq (env : Environment) (name : String) :
    env.text? name = (env.bytes? name).bind Utf8.decode := by
  rw [text?, bytes?, Option.bind_map]
  rfl

/-! ## The list as it is written -/

namespace AllowList

/-- The items of a list, between its commas. -/
def items (value : Utf8.Bytes) : List Utf8.Bytes := value.splitOn Text.comma

/-- There are only blanks in the item. -/
def IsBlank (item : Utf8.Bytes) : Prop :=
  ∃ cs : List Char, (∀ c ∈ cs, Text.isBlank c = true) ∧ item = Utf8.encode (String.ofList cs)

/-- The item is the id of the user, with blanks around it at most. -/
def Writes (item : Utf8.Bytes) (user : String) : Prop :=
  ∃ cs : List Char, Text.IsCore cs user.toList ∧ item = Utf8.encode (String.ofList cs)

variable {text user : String} {cs : List Char}

theorem items_encode (text : String) :
    items (Utf8.encode text) =
      (Text.splitOn ',' text.toList).map fun item => Utf8.encode (String.ofList item) := by
  rw [← Text.splitOn_encode, String.ofList_toList]
  rfl

theorem exists_mem_items {p : Utf8.Bytes → Prop} :
    (∃ item ∈ items (Utf8.encode text), p item) ↔
      ∃ cs ∈ Text.splitOn ',' text.toList, p (Utf8.encode (String.ofList cs)) := by
  simp only [items_encode, List.mem_map, exists_exists_and_eq_and]

theorem encode_ofList_inj {cs cs' : List Char} :
    Utf8.encode (String.ofList cs) = Utf8.encode (String.ofList cs') ↔ cs = cs' :=
  ⟨fun h => String.ofList_injective (Utf8.encode_injective h), fun h => h ▸ rfl⟩

theorem isBlank_encode_iff :
    IsBlank (Utf8.encode (String.ofList cs)) ↔ Text.trim cs = [] := by
  rw [Text.trim_eq_iff]
  constructor
  · rintro ⟨cs', hblank, heq⟩
    cases encode_ofList_inj.1 heq
    exact ⟨cs, [], by simp, hblank, nofun, nofun, nofun⟩
  · rintro ⟨front, back, rfl, hfront, hback, -⟩
    refine ⟨_, fun c hc => ?_, rfl⟩
    rw [List.append_nil] at hc
    exact (List.mem_append.1 hc).elim (hfront c) (hback c)

theorem writes_encode_iff :
    Writes (Utf8.encode (String.ofList cs)) user ↔ Text.trim cs = user.toList := by
  rw [Text.trim_eq_iff]
  constructor
  · rintro ⟨cs', hcore, heq⟩
    cases encode_ofList_inj.1 heq
    exact hcore
  · exact fun hcore => ⟨cs, hcore, rfl⟩

/-! ## The list as it is read -/

theorem mem_listOfText :
    user ∈ Settings.listOfText text ↔
      user ≠ "" ∧ ∃ item ∈ items (Utf8.encode text), Writes item user := by
  rw [exists_mem_items, Settings.listOfText, List.mem_filter, List.mem_map, decide_eq_true_eq,
    and_comm]
  refine and_congr_right fun _ => exists_congr fun item => and_congr_right fun _ => ?_
  rw [writes_encode_iff]
  exact ⟨fun h => h ▸ String.toList_ofList.symm, fun h => h ▸ String.ofList_toList⟩

/-- The list that is read has somebody on it if not all items are blank. -/
theorem listOfText_ne_nil (h : ∃ item ∈ items (Utf8.encode text), ¬ IsBlank item) :
    Settings.listOfText text ≠ [] := by
  obtain ⟨item, hitem, hcore⟩ := exists_mem_items.1 h
  rw [isBlank_encode_iff] at hcore
  refine List.ne_nil_of_mem (a := String.ofList (Text.trim item))
    (mem_listOfText.2 ⟨fun hnil => hcore (String.ofList_injective hnil), ?_⟩)
  exact exists_mem_items.2 ⟨item, hitem, writes_encode_iff.2 String.toList_ofList.symm⟩

end AllowList

/-! ## The gateway -/

namespace Gateway

open AllowList

/-- A gateway as the environment configures it. -/
def ofEnvironment (env : Environment) : Gateway where
  settings := .ofEnvironment env
  validator := (Validator.ofAllowed (Settings.ofEnvironment env).allowedUsers).1

variable {env : Environment} {value : Utf8.Bytes}

theorem allowedUsers_ofEnvironment (h : env.bytes? "TENANTKV_ALLOWED_USERS" = some value) :
    (Settings.ofEnvironment env).allowedUsers =
      ((Utf8.decode value).map Settings.listOfText).getD [] := by
  have htext := env.text?_eq "TENANTKV_ALLOWED_USERS"
  rw [h, Option.bind_some] at htext
  rw [← htext]
  rfl

theorem authorize_everybody (h : (Settings.ofEnvironment env).allowedUsers = []) (t : Tenant) :
    ((ofEnvironment env).authorize t).1 = .ok () ↔ t.user ≠ "" := by
  unfold authorize ofEnvironment Validator.ofAllowed
  by_cases hu : t.user = "" <;> simp [h, hu, Validator.allowAll]

theorem authorize_listed (h : (Settings.ofEnvironment env).allowedUsers ≠ []) {t : Tenant}
    (huser : t.user ≠ "") :
    ((ofEnvironment env).authorize t).1 =
      if t.user ∈ (Settings.ofEnvironment env).allowedUsers then .ok ()
      else .error (.denied t.user) := by
  by_cases hm : t.user ∈ (Settings.ofEnvironment env).allowedUsers <;>
    simp [authorize, ofEnvironment, Validator.ofAllowed, Validator.allowList, h, huser, hm]

/-- A list that is a text and names anybody lets in who is on it, and refuses everybody else. One
that is no text does not count: then whoever has an id is let in. -/
theorem allow_list_law (hset : env.bytes? "TENANTKV_ALLOWED_USERS" = some value) :
    ((∃ text, Utf8.encode text = value) → (∃ item ∈ items value, ¬ IsBlank item) →
      (∀ t : Tenant, ((ofEnvironment env).authorize t).1 = .ok () ↔
        t.user ≠ "" ∧ ∃ item ∈ items value, Writes item t.user) ∧
      ∃ user, user ≠ "" ∧ ∀ organization,
        ((ofEnvironment env).authorize ⟨user, organization⟩).1 = .error (.denied user)) ∧
    ((∀ text, Utf8.encode text ≠ value) →
      ∀ t : Tenant, ((ofEnvironment env).authorize t).1 = .ok () ↔ t.user ≠ "") := by
  have hallowed := allowedUsers_ofEnvironment hset
  constructor
  · rintro ⟨text, rfl⟩ hsomebody
    rw [Utf8.decode_encode] at hallowed
    have hlisted : (Settings.ofEnvironment env).allowedUsers ≠ [] := by
      rw [hallowed]
      exact listOfText_ne_nil hsomebody
    refine ⟨fun t => ?_, ?_⟩
    · by_cases huser : t.user = ""
      · simp [authorize, huser]
      · have hmem : t.user ∈ (Settings.ofEnvironment env).allowedUsers ↔ t.user ≠ "" ∧
            ∃ item ∈ items (Utf8.encode text), Writes item t.user := by
          rw [hallowed]
          exact mem_listOfText
        rw [authorize_listed hlisted huser, ← hmem]
        by_cases hm : t.user ∈ (Settings.ofEnvironment env).allowedUsers
        · rw [if_pos hm]
          exact ⟨fun _ => hm, fun _ => rfl⟩
        · rw [if_neg hm]
          exact ⟨nofun, fun h => absurd h hm⟩
    · -- there are more ids than on any list
      obtain ⟨user, hnew⟩ := Infinite.exists_notMem_finset
        ("" :: (Settings.ofEnvironment env).allowedUsers).toFinset
      rw [List.mem_toFinset, List.mem_cons, not_or] at hnew
      refine ⟨user, hnew.1, fun organization => ?_⟩
      rw [authorize_listed hlisted hnew.1, if_neg hnew.2]
  · intro hnot
    refine authorize_everybody ?_
    rw [hallowed]
    cases hdecode : Utf8.decode value with
    | none => rfl
    | some text => exact absurd (Utf8.decode_eq_some_iff.1 hdecode) (hnot text)

/-- Blanks around an id do not count, of any kind, and blank items name nobody. -/
theorem allow_list_law_padded :
    let value : Utf8.Bytes := Utf8.encode " ann ,　bob	,,"
    let env : Environment := [("TENANTKV_ALLOWED_USERS", value)]
    env.bytes? "TENANTKV_ALLOWED_USERS" = some value ∧
      (∃ text, Utf8.encode text = value) ∧ (∃ item ∈ items value, ¬ IsBlank item) ∧
      ((ofEnvironment env).authorize ⟨"bob", none⟩).1 = .ok () ∧
      ((ofEnvironment env).authorize ⟨"eve", none⟩).1 ≠ .ok () := by
  intro value env
  have hset : env.bytes? "TENANTKV_ALLOWED_USERS" = some value := rfl
  have hsomebody : ∃ item ∈ items value, ¬ IsBlank item := by
    refine exists_mem_items.2 ⟨[' ', 'a', 'n', 'n', ' '], by decide, ?_⟩
    rw [isBlank_encode_iff]
    decide
  have hlaw := ((allow_list_law hset).1 ⟨_, rfl⟩ hsomebody).1
  refine ⟨hset, ⟨_, rfl⟩, hsomebody, (hlaw ⟨"bob", none⟩).2 ⟨by decide, ?_⟩, fun hok => ?_⟩
  · refine exists_mem_items.2 ⟨['\u3000', 'b', 'o', 'b', '\t'], by decide, ?_⟩
    rw [writes_encode_iff]
    decide
  · obtain ⟨-, hwritten⟩ := (hlaw ⟨"eve", none⟩).1 hok
    obtain ⟨item, hitem, hwrites⟩ := exists_mem_items.1 hwritten
    have hnone : ∀ cs ∈ Text.splitOn ',' " ann ,\u3000bob\t,,".toList,
        Text.trim cs ≠ "eve".toList := by decide
    exact hnone item hitem (writes_encode_iff.1 hwrites)

/-- A list that names `alice` and is no text: somebody else is let in. -/
theorem allow_list_not_text :
    ¬ ∀ (env : Environment) (value : Utf8.Bytes),
      env.bytes? "TENANTKV_ALLOWED_USERS" = some value → (∃ item ∈ items value, ¬ IsBlank item) →
      ∀ t : Tenant, ((ofEnvironment env).authorize t).1 = .ok () ↔
        t.user ≠ "" ∧ ∃ item ∈ items value, Writes item t.user := by
  intro hlaw
  let value : Utf8.Bytes := Utf8.encode "alice," ++ [0xFF]
  have hitems : items value = [Utf8.encode "alice", [0xFF]] := by decide
  have hnotext : ∀ cs : List Char, ([0xFF] : Utf8.Bytes) ≠ Utf8.encode (String.ofList cs) := by
    intro cs h
    have hnone : Utf8.decode [0xFF] = none := by decide
    cases hnone.symm.trans (Utf8.decode_eq_some_iff.2 h.symm)
  have hsomebody : ∃ item ∈ items value, ¬ IsBlank item := by
    refine ⟨[0xFF], by rw [hitems]; decide, fun ⟨cs, _, h⟩ => hnotext cs h⟩
  obtain ⟨-, item, hitem, hwrites⟩ :=
    (hlaw [("TENANTKV_ALLOWED_USERS", value)] value rfl hsomebody ⟨"mallory", none⟩).1 (by decide)
  rw [hitems] at hitem
  rcases List.mem_cons.1 hitem with rfl | hitem
  · have halice : Text.trim "alice".toList = "mallory".toList := writes_encode_iff.1 hwrites
    revert halice
    decide
  · cases List.mem_singleton.1 hitem
    obtain ⟨cs, -, h⟩ := hwrites
    exact hnotext cs h

end Gateway

end Tenancy
