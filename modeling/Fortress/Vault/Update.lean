/-
What an update of the vault keeps. The serialized form round-trips for tables
without an empty key, a file that a save wrote loads to the table it saved,
and an update that fails leaves the file alone. But an update that could not
load the old file, for whatever reason, starts from an empty table.
-/
import Fortress.Vault.Db

namespace Fortress.Vault

open Codec List

/-! ## Records -/

theorem length_encodeRecord (r : Record) :
    (encodeRecord r).length = 15 + r.key.length + r.secret.length + r.note.length := by
  simp only [encodeRecord, length_append, length_le, length_singleton, CStr.length]
  omega

/-- Parsing a written record gives it back, unless its key is empty. -/
theorem parseRecord_encode (r : Record) (rest : Bytes) :
    parseRecord (encodeRecord r ++ rest) = if r.key.length = 0 then .error .corrupt else .ok (r, rest) := by
  have hk := r.key_lt
  have hs := r.secret_le
  have hn := r.note_lt
  simp only [VAULT_MAX_KEY_LEN, VAULT_MAX_SECRET_LEN, VAULT_MAX_META_LEN] at hk hs hn
  have hp : [le r.key.length 2, [r.secretType], le r.secret.length 2, le r.note.length 2, le r.createdAt.toNat 8,
      r.key.bytes, r.secret, r.note.bytes, rest].flatten = encodeRecord r ++ rest := by simp [encodeRecord]
  have hlen : (encodeRecord r ++ rest).length = 15 + r.key.length + r.secret.length + r.note.length + rest.length := by
    rw [length_append, length_encodeRecord]
  have hklen : slice (encodeRecord r ++ rest) 0 2 = le r.key.length 2 :=
    hp ▸ slice_flatten (i := 0) (by simp) rfl (by simp)
  have htype : (encodeRecord r ++ rest).getD 2 0 = r.secretType := by
    simp [encodeRecord, getD_eq_getElem?_getD]
  have hslen : slice (encodeRecord r ++ rest) 3 2 = le r.secret.length 2 :=
    hp ▸ slice_flatten (i := 2) (by simp) (by simp) (by simp)
  have hmlen : slice (encodeRecord r ++ rest) 5 2 = le r.note.length 2 :=
    hp ▸ slice_flatten (i := 3) (by simp) (by simp) (by simp)
  have hcreated : slice (encodeRecord r ++ rest) 7 8 = le r.createdAt.toNat 8 :=
    hp ▸ slice_flatten (i := 4) (by simp) (by simp) (by simp)
  have hkey : slice (encodeRecord r ++ rest) 15 r.key.length = r.key.bytes :=
    hp ▸ slice_flatten (i := 5) (by simp) (by simp) rfl
  have hsecret : slice (encodeRecord r ++ rest) (15 + r.key.length) r.secret.length = r.secret :=
    hp ▸ slice_flatten (i := 6) (by simp) (by simp [CStr.length]; omega) rfl
  have hnote : slice (encodeRecord r ++ rest) (15 + r.key.length + r.secret.length) r.note.length = r.note.bytes :=
    hp ▸ slice_flatten (i := 7) (by simp) (by simp [CStr.length]; omega) rfl
  have hrest : (encodeRecord r ++ rest).drop (15 + r.key.length + r.secret.length + r.note.length) = rest := by
    rw [← length_encodeRecord, drop_left]
  unfold parseRecord
  simp only [hklen, hslen, hmlen, fromLe_le_of_lt (show r.key.length < 256 ^ 2 by omega),
    fromLe_le_of_lt (show r.secret.length < 256 ^ 2 by omega), fromLe_le_of_lt (show r.note.length < 256 ^ 2 by omega)]
  rw [if_neg (by omega)]
  by_cases hzero : r.key.length = 0
  · rw [dif_pos (.inl hzero), if_pos hzero]
  rw [dif_neg (by simp only [VAULT_MAX_KEY_LEN, VAULT_MAX_SECRET_LEN, VAULT_MAX_META_LEN]; omega),
    if_neg (by omega), if_neg hzero]
  simp only [hkey, hsecret, hnote, hrest, htype, hcreated, fromLe_le_of_lt (w := 8) r.createdAt.toNat_lt, cstr_bytes,
    UInt64.ofNat_toNat, Nat.toUInt64]

/-! ## Tables -/

theorem serializeLoop_ok : ∀ {rs : List Record} {out p : Bytes}, serializeLoop rs out = .ok p →
    p = out ++ rs.flatMap encodeRecord ∧ (out.length ≤ VAULT_MAX_PAYLOAD_LEN → p.length ≤ VAULT_MAX_PAYLOAD_LEN)
  | [], out, p, h => by
    cases h
    simp
  | r :: rs, out, p, h => by
    rw [serializeLoop] at h
    split at h
    · cases h
    rename_i hfit
    obtain ⟨hp, hle⟩ := serializeLoop_ok h
    refine ⟨by simp [hp], fun _ => hle ?_⟩
    rw [length_append, length_encodeRecord]
    omega

variable {db : Db} {p : Bytes}

theorem serialize_ok (h : vaultDbSerialize db = .ok p) :
    p = db.records.flatMap encodeRecord ∧ p.length ≤ VAULT_MAX_PAYLOAD_LEN := by
  obtain ⟨hp, hle⟩ := serializeLoop_ok h
  exact ⟨hp, hle (Nat.zero_le _)⟩

variable {r : Record} {chunk : Nat → Nat} {file : Option Bytes} {f : LoadFaults}

theorem deserializeLoop_cons {n : Nat} {acc : Table} (hn : (encodeRecord r ++ p).length ≤ n)
    (hacc : acc.1.length < VAULT_MAX_RECORDS) :
    deserializeLoop n (encodeRecord r ++ p) acc =
      if r.key.length = 0 then .error .corrupt
      else deserializeLoop (n - 1) p ⟨acc.1 ++ [r], by simp; omega⟩ := by
  have hpos : 0 < (encodeRecord r ++ p).length := by
    rw [length_append, length_encodeRecord]
    omega
  obtain ⟨b, q, hq⟩ := exists_cons_of_length_pos hpos
  obtain ⟨m, rfl⟩ : ∃ m, n = m + 1 := ⟨n - 1, by omega⟩
  have hparse := parseRecord_encode r p
  rw [hq] at hparse ⊢
  by_cases hzero : r.key.length = 0
  · rw [if_pos hzero] at hparse ⊢
    rw [deserializeLoop, hparse]
  rw [if_neg hzero] at hparse ⊢
  rw [deserializeLoop, hparse]
  dsimp only
  rw [dif_neg (by omega)]
  rfl

theorem deserializeLoop_encode : ∀ {rs : List Record} {n : Nat} {acc : Table},
    (rs.flatMap encodeRecord).length ≤ n → (hcount : acc.1.length + rs.length ≤ VAULT_MAX_RECORDS) →
    deserializeLoop n (rs.flatMap encodeRecord) acc =
      if ∀ r ∈ rs, r.key.length ≠ 0 then .ok ⟨acc.1 ++ rs, by simpa using hcount⟩ else .error .corrupt
  | [], n, acc, _, _ => by
    rw [if_pos (by simp)]
    cases n <;> simp [deserializeLoop]
  | r :: rs, n, acc, hn, hcount => by
    rw [List.length_cons] at hcount
    rw [List.flatMap_cons] at hn ⊢
    rw [deserializeLoop_cons hn (by omega)]
    have hlen := length_encodeRecord r
    rw [length_append] at hn
    by_cases hzero : r.key.length = 0
    · rw [if_pos hzero, if_neg (by simp [hzero])]
    rw [if_neg hzero, deserializeLoop_encode (by omega) (by simp; omega)]
    by_cases hall : ∀ x ∈ rs, x.key.length ≠ 0
    · rw [if_pos hall, if_pos (by simpa [hzero] using hall)]
      simp
    · rw [if_neg hall, if_neg (by simpa [hzero] using hall)]

theorem deserialize_serialize (h : vaultDbSerialize db = .ok p) :
    vaultDbDeserialize p =
      if ∀ r ∈ db.records, r.key.length ≠ 0 then .ok ⟨db.records, db.count_le⟩ else .error .corrupt := by
  obtain ⟨rfl, _⟩ := serialize_ok h
  rw [vaultDbDeserialize, deserializeLoop_encode le_rfl (by simpa using db.count_le)]
  simp

/-! ## Loading -/

theorem readLoop_some : ∀ {n i need : Nat} {rest acc c : Bytes},
    readLoop chunk n i rest need acc = some c → need ≤ rest.length ∧ c = acc ++ rest.take need
  | n, i, 0, rest, acc, c, h => by
    rw [readLoop, Option.some.injEq] at h
    simp [h]
  | 0, i, need + 1, rest, acc, c, h => by
    rw [readLoop] at h
    cases h
  | n + 1, i, need + 1, rest, acc, c, h => by
    rw [readLoop] at h
    split at h
    · cases h
    generalize hr : min (min (need + 1) rest.length) (chunk i) = r at h
    have hle : r ≤ need + 1 ∧ r ≤ rest.length := by omega
    obtain ⟨hneed, rfl⟩ := readLoop_some h
    rw [length_drop] at hneed
    refine ⟨by omega, ?_⟩
    rw [append_assoc, ← take_add, Nat.add_sub_cancel' hle.1]

theorem readLoop_all {rest : Bytes} {need : Nat} (h : need ≤ rest.length) (hmax : need ≤ VAULT_MAX_PAYLOAD_LEN) :
    readLoop (fun _ => VAULT_MAX_PAYLOAD_LEN) need 0 rest need [] = some (rest.take need) := by
  cases need with
  | zero => simp [readLoop]
  | succ need =>
    have hr : min (min (need + 1) rest.length) VAULT_MAX_PAYLOAD_LEN = need + 1 := by omega
    rw [readLoop, hr, if_neg (by omega), Nat.sub_self]
    simp [readLoop]

theorem readFile_of_faults {x : Bytes × Bytes} (h : readFile f file = .ok x) : readFile {} file = .ok x := by
  cases file with
  | none => cases h
  | some content =>
    simp only [readFile] at h ⊢
    split at h
    · cases h
    split at h
    · cases h
    rename_i _ hhdr
    rw [if_neg (by decide), if_neg (by omega)]
    split at h
    · cases h
    rename_i hmagic
    rw [if_neg hmagic]
    split at h
    · cases h
    rename_i hneed
    rw [if_neg hneed]
    split at h
    · cases h
    rename_i cipher hloop
    obtain ⟨hle, hc⟩ := readLoop_some hloop
    rw [readLoop_all hle (by omega)]
    rw [hc, nil_append] at h
    exact h

variable {C : Crypto} {pass : CStr}

theorem load_of_faults (h : vaultFileLoad C f file pass = .ok db) : vaultFileLoad C {} file pass = .ok db := by
  unfold vaultFileLoad at h ⊢
  cases hr : readFile f file with
  | error e =>
    rw [hr] at h
    cases h
  | ok x =>
    rw [hr] at h
    rw [readFile_of_faults hr]
    exact h

/-! ## Saving -/

section Saved

variable {j : UInt32} {salt nonce tag cipher : Bytes} {n : Nat}

theorem encodeHeader_eq (j : UInt32) (salt nonce tag : Bytes) (n : Nat) :
    [le VAULT_MAGIC 4, le VAULT_VERSION 2, [VAULT_KDF_PBKDF2_SHA256, 0], le j.toNat 4, salt, nonce, tag, le n 4].flatten =
      encodeHeader j salt nonce tag n := by
  simp [encodeHeader, headerStart]

theorem readFile_saved (hsalt : salt.length = 16) (hnonce : nonce.length = 12) (htag : tag.length = 16)
    (hcipher : cipher.length = n) (hn : n ≤ VAULT_MAX_PAYLOAD_LEN) :
    readFile {} (some (encodeHeader j salt nonce tag n ++ cipher)) =
      .ok (encodeHeader j salt nonce tag n, cipher) := by
  have hlen : (encodeHeader j salt nonce tag n).length = HEADER_LEN := by
    simp [← encodeHeader_eq, hsalt, hnonce, htag, HEADER_LEN]
  have hp := encodeHeader_eq j salt nonce tag n
  have htake : (encodeHeader j salt nonce tag n ++ cipher).take HEADER_LEN =
      encodeHeader j salt nonce tag n := by
    rw [← hlen, take_left]
  have hmagic : slice (encodeHeader j salt nonce tag n) 0 4 = le VAULT_MAGIC 4 :=
    hp ▸ slice_flatten (i := 0) (by simp) rfl (by simp)
  have hversion : slice (encodeHeader j salt nonce tag n) 4 2 = le VAULT_VERSION 2 :=
    hp ▸ slice_flatten (i := 1) (by simp) (by simp) (by simp)
  have hkdf : (encodeHeader j salt nonce tag n).getD 6 0 = VAULT_KDF_PBKDF2_SHA256 := by
    rw [encodeHeader, headerStart]
    simp [getD_eq_getElem?_getD, getElem?_append]
  have hneed : slice (encodeHeader j salt nonce tag n) 56 4 = le n 4 :=
    hp ▸ slice_flatten (i := 7) (by simp) (by simp [hsalt, hnonce, htag]) (by simp)
  have hn4 : fromLe (le n 4) = n := fromLe_le_of_lt (by simp only [VAULT_MAX_PAYLOAD_LEN] at hn; omega)
  have hdrop : (encodeHeader j salt nonce tag n ++ cipher).drop HEADER_LEN = cipher := by
    rw [← hlen, drop_left]
  simp only [readFile, htake, hmagic, hversion, hkdf, hneed, hn4, hdrop]
  rw [if_neg (by decide), if_neg (by rw [length_append, hlen]; omega), if_neg (by decide), if_neg (by omega),
    readLoop_all (by omega) hn, take_of_length_le (by omega)]

theorem header_fields (hsalt : salt.length = 16) (hnonce : nonce.length = 12) (htag : tag.length = 16) :
    (fromLe (slice (encodeHeader j salt nonce tag n) 8 4)).toUInt32 = j ∧
      slice (encodeHeader j salt nonce tag n) 12 16 = salt ∧
      slice (encodeHeader j salt nonce tag n) 28 12 = nonce ∧
      slice (encodeHeader j salt nonce tag n) 40 16 = tag ∧
      slice (encodeHeader j salt nonce tag n) 0 VAULT_AD_LEN = (headerStart j salt).take VAULT_AD_LEN := by
  have hp := encodeHeader_eq j salt nonce tag n
  have hj : slice (encodeHeader j salt nonce tag n) 8 4 = le j.toNat 4 :=
    hp ▸ slice_flatten (i := 3) (by simp) (by simp) (by simp)
  refine ⟨?_, ?_, ?_, ?_, ?_⟩
  · rw [hj, fromLe_le_of_lt j.toNat_lt]
    exact UInt32.ofNat_toNat
  · exact hp ▸ slice_flatten (i := 4) (by simp) (by simp) hsalt.symm
  · exact hp ▸ slice_flatten (i := 5) (by simp) (by simp [hsalt]) hnonce.symm
  · exact hp ▸ slice_flatten (i := 6) (by simp) (by simp [hsalt, hnonce]) htag.symm
  · rw [encodeHeader, slice_append_left (by simp [headerStart, hsalt, VAULT_AD_LEN]), slice, drop_zero]

end Saved

theorem writeLoop_done : ∀ {n i : Nat} {rest out : Bytes},
    (writeLoop chunk n i rest out).2 = true → (writeLoop chunk n i rest out).1 = out ++ rest
  | n, i, [], out, _ => by simp [writeLoop]
  | 0, i, b :: rest, out, h => by
    rw [writeLoop] at h
    cases h
  | n + 1, i, b :: rest, out, h => by
    rw [writeLoop] at h ⊢
    split at h
    · cases h
    rename_i hr
    rw [if_neg hr, writeLoop_done h, List.append_assoc, List.take_append_drop]

theorem writeLoop_all {rest out : Bytes} (h : rest.length ≤ VAULT_MAX_PAYLOAD_LEN) :
    (writeLoop (fun _ => VAULT_MAX_PAYLOAD_LEN) rest.length 0 rest out).2 = true := by
  cases rest with
  | nil => simp [writeLoop]
  | cons b rest =>
    have hr : min (b :: rest).length VAULT_MAX_PAYLOAD_LEN = rest.length + 1 := by
      rw [length_cons] at h ⊢
      omega
    rw [length_cons, writeLoop, hr, if_neg (by omega)]
    simp [writeLoop]

/-- A save from the temporary file on fails with the vault as it was, or replaces it whole. -/
theorem saveFile_cases (f : SaveFaults) (hdr cipher : Bytes) (w : World) :
    ((saveFile f hdr cipher w).1 ≠ none ∧ (saveFile f hdr cipher w).2.vault = w.vault) ∨
      ((saveFile f hdr cipher w).1 = none ∧ (saveFile f hdr cipher w).2.vault = some (hdr ++ cipher)) := by
  have hunlink (w : World) : (w.unlinkTmp f).vault = w.vault := by
    unfold World.unlinkTmp
    split <;> rfl
  unfold saveFile
  split
  · exact .inl ⟨by simp, rfl⟩
  split
  · exact .inl ⟨by simp, hunlink _⟩
  dsimp only
  split
  · exact .inl ⟨by simp, hunlink _⟩
  rename_i hdone
  split
  · exact .inr ⟨rfl, congrArg some (writeLoop_done (by simpa using hdone))⟩
  · exact .inl ⟨by simp, hunlink _⟩

/-- The records a load of the file yields when every system call works. -/
def Loads (C : Crypto) (pass : CStr) (file : Option Bytes) (R : List Record) : Prop :=
  ∃ db, vaultFileLoad C {} file pass = .ok db ∧ db.records = R

theorem loads_saved {plain salt nonce : Bytes} {it : UInt32}
    (hplain : vaultDbSerialize db = .ok plain) (hsalt : salt.length = 16) (hnonce : nonce.length = 12) (hit : it ≠ 0)
    (R : List Record) :
    let key := C.kdf pass.bytes salt it
    let ad := (headerStart it salt).take VAULT_AD_LEN
    Loads C pass (some (encodeHeader it salt nonce (C.tag key nonce ad plain) plain.length ++
      C.lock key nonce ad plain)) R ↔ (∀ r ∈ db.records, r.key.length ≠ 0) ∧ R = db.records := by
  intro key ad
  obtain ⟨hi, hs, hn, ht, ha⟩ := header_fields (j := it) (n := plain.length) hsalt hnonce
    (C.length_tag key nonce ad plain)
  have hload : vaultFileLoad C {} (some (encodeHeader it salt nonce (C.tag key nonce ad plain) plain.length ++
      C.lock key nonce ad plain)) pass =
        (vaultDbDeserialize plain).map fun t => { iterations := it, records := t.1, count_le := t.2 } := by
    rw [vaultFileLoad, readFile_saved hsalt hnonce (C.length_tag _ _ _ _) (C.length_lock _ _ _ _) (serialize_ok hplain).2]
    simp only [openVault, hi, hs, hn, ht, ha]
    rewrite [if_neg hit, C.unlock_lock]
    dsimp only
    cases vaultDbDeserialize plain <;> rfl
  unfold Loads
  rw [hload, deserialize_serialize hplain]
  by_cases hall : ∀ r ∈ db.records, r.key.length ≠ 0
  · rw [if_pos hall]
    constructor
    · rintro ⟨db', hdb', rfl⟩
      cases hdb'
      exact ⟨hall, rfl⟩
    · rintro ⟨_, rfl⟩
      exact ⟨_, rfl, rfl⟩
  rw [if_neg hall]
  constructor
  · rintro ⟨db', hdb', _⟩
    cases hdb'
  · exact fun h => absurd h.1 hall

/-- A save fails with the vault as it was, or the new vault loads to the table
saved, or to nothing if that has an empty key. -/
theorem save_cases (C : Crypto) (f : SaveFaults) (n : Nat) (pass : CStr) (db : Db) (w : World) :
    ((vaultFileSave C f n pass db w).1 ≠ none ∧ (vaultFileSave C f n pass db w).2.vault = w.vault) ∨
      ((vaultFileSave C f n pass db w).1 = none ∧ n + 5 < 256 ∧ (∃ p, vaultDbSerialize db = .ok p) ∧
        ∀ R, Loads C pass (vaultFileSave C f n pass db w).2.vault R ↔
          (∀ r ∈ db.records, r.key.length ≠ 0) ∧ R = db.records) := by
  unfold vaultFileSave
  cases hplain : vaultDbSerialize db with
  | error e => exact .inl ⟨by simp, rfl⟩
  | ok plain =>
    obtain ⟨salt, nonce, -⟩ := f
    cases salt with
    | none => exact .inl ⟨by simp, rfl⟩
    | some salt =>
      cases nonce with
      | none => exact .inl ⟨by simp, rfl⟩
      | some nonce =>
        dsimp only
        split
        · exact .inl ⟨by simp, rfl⟩
        rename_i hn
        rcases saveFile_cases _ _ _ w with h | ⟨hok, hfile⟩
        · exact .inl h
        refine .inr ⟨hok, by omega, ⟨plain, rfl⟩, fun R => ?_⟩
        rw [hfile]
        refine loads_saved hplain salt.2 nonce.2 ?_ R
        split
        · decide
        · assumption

/-- System calls that all work, and some random bytes. -/
def calm : SaveFaults :=
  { salt := some ⟨List.replicate 16 0, by simp⟩, nonce := some ⟨List.replicate 12 0, by simp⟩ }

theorem save_calm {n : Nat} (w : World) (hn : n + 5 < 256)
    (hp : vaultDbSerialize db = .ok p) : (vaultFileSave C calm n pass db w).1 = none := by
  unfold vaultFileSave
  rw [hp]
  simp only [calm]
  rw [if_neg (by omega), saveFile, if_neg (by decide), if_neg (by decide)]
  dsimp only
  rw [writeLoop_all (by rw [C.length_lock]; exact (serialize_ok hp).2)]
  simp

/-! ## Setting a record -/

/-- The table with the record of that key replaced, or the record appended. -/
def withRecord (r : Record) : List Record → List Record
  | [] => [r]
  | x :: xs => if x.key = r.key then r :: xs else x :: withRecord r xs

variable {q : Request} {l : List Record} {x : Record}

theorem record_some (h : q.record = some r) : r.key = q.key ∧ q.key.length ≠ 0 := by
  unfold Request.record at h
  split at h
  · cases h
  rename_i hq
  cases h
  exact ⟨rfl, by omega⟩

theorem withRecord_eq (r : Record) (l : List Record) :
    withRecord r l =
      match l.findIdx? fun x => x.key == r.key with
      | some i => l.set i r
      | none => l ++ [r] := by
  induction l with
  | nil => rfl
  | cons x xs ih =>
    rw [withRecord, findIdx?_cons]
    by_cases hx : x.key = r.key
    · simp [hx]
    rw [if_neg hx, if_neg (by simpa using hx), ih]
    cases xs.findIdx? fun x => x.key == r.key <;> rfl

theorem mem_withRecord (hx : x ∈ l) (hne : x.key ≠ r.key) : x ∈ withRecord r l := by
  induction l with
  | nil => cases hx
  | cons y ys ih =>
    rw [withRecord]
    rcases mem_cons.1 hx with rfl | hx
    · rw [if_neg hne]
      exact .head _
    split
    · exact .tail _ hx
    · exact .tail _ (ih hx)

theorem of_mem_withRecord (hx : x ∈ withRecord r l) : x = r ∨ x ∈ l := by
  induction l with
  | nil => exact .inl (mem_singleton.1 hx)
  | cons y ys ih =>
    rw [withRecord] at hx
    split at hx
    · exact (mem_cons.1 hx).imp id (mem_cons_of_mem y)
    rcases mem_cons.1 hx with rfl | hx
    · exact .inr (.head _)
    · exact (ih hx).imp id (mem_cons_of_mem y)

theorem withRecord_eq_singleton : withRecord r l = [r] ↔ l.length ≤ 1 ∧ ∀ x ∈ l, x.key = r.key := by
  cases l with
  | nil => simp [withRecord]
  | cons x xs =>
    rw [withRecord]
    split
    · rename_i hx
      cases xs with
      | nil => simp [hx]
      | cons => simp
    rename_i hx
    have hpos : 0 < (withRecord r xs).length := by
      cases xs with
      | nil => simp [withRecord]
      | cons y ys =>
        rw [withRecord]
        split <;> simp
    constructor
    · intro h
      have := congrArg length h
      simp only [length_cons, length_nil] at this
      omega
    · exact fun h => absurd (h.2 x (.head _)) hx

theorem set_ok {db' : Db} (hr : q.record = some r) (h : vaultDbSet db q = .ok db') :
    db'.records = withRecord r db.records := by
  have hkey := (record_some hr).1
  rw [withRecord_eq, hkey]
  unfold vaultDbSet at h
  rw [hr] at h
  cases hfind : db.records.findIdx? fun x => x.key == q.key with
  | some i =>
    rw [hfind] at h
    cases h
    rfl
  | none =>
    rw [hfind] at h
    dsimp only at h
    split at h
    · cases h
    cases h
    rfl

theorem set_inval (h : q.record = none) : vaultDbSet db q = .error .inval := by
  simp [vaultDbSet, h]

/-- An empty table takes any admitted record, and can be saved with it. -/
theorem set_empty (hr : q.record = some r) :
    ∃ db, vaultDbSet vaultDbInitEmpty q = .ok db ∧ db.records = [r] ∧ ∃ p, vaultDbSerialize db = .ok p := by
  have hset : vaultDbSet vaultDbInitEmpty q =
      .ok { vaultDbInitEmpty with records := [r], count_le := by simp [VAULT_MAX_RECORDS] } := by
    simp [vaultDbSet, hr, vaultDbInitEmpty, VAULT_MAX_RECORDS]
  refine ⟨_, hset, rfl, encodeRecord r, ?_⟩
  have hk := r.key_lt
  have hs := r.secret_le
  have hn := r.note_lt
  simp only [VAULT_MAX_KEY_LEN, VAULT_MAX_SECRET_LEN, VAULT_MAX_META_LEN] at hk hs hn
  rw [vaultDbSerialize, serializeLoop, if_neg (by simp [VAULT_MAX_PAYLOAD_LEN]; omega)]
  rfl

/-! ## What an update keeps -/

variable (C)

/-- The update kept its word: on success there was no file, or the old one
loads under the passphrase and the new one loads to its records with the given
one set; on an error the file is the old one. -/
def Kept (pass : CStr) (q : Request) (before : Option Bytes) (result : Option VaultErr × World) : Prop :=
  (result.1 = none → before = none ∨
    ∃ r R, q.record = some r ∧ Loads C pass before R ∧ Loads C pass result.2.vault (withRecord r R)) ∧
  (result.1 ≠ none → result.2.vault = before)

variable (lf : LoadFaults)

/-- There is no file; or the request or the path is refused; or the load goes
through, and no key in the file is empty unless the table cannot be saved with
the record; or the load fails on a file whose records, if any, are the one of
that key. -/
def Spared (n : Nat) (pass : CStr) (q : Request) (w : World) : Prop :=
  w.vault = none ∨ q.record = none ∨ 256 ≤ n + 5 ∨
    match vaultFileLoad C lf w.vault pass with
    | .ok db => (∀ x ∈ db.records, x.key.length ≠ 0) ∨
        ∀ db' p, vaultDbSet db q = .ok db' → vaultDbSerialize db' ≠ .ok p
    | .error _ => ∃ R, Loads C pass w.vault R ∧ R.length ≤ 1 ∧ ∀ x ∈ R, x.key = q.key

/-- The table an update starts from. -/
def startTable (pass : CStr) (file : Option Bytes) : Db :=
  match vaultFileLoad C lf file pass with
  | .ok db => db
  | .error _ => vaultDbInitEmpty

theorem vaultSetSecret_eq (sf : SaveFaults) (n : Nat) (pass : CStr) (q : Request)
    (w : World) :
    vaultSetSecret C lf sf n pass q w =
      match vaultDbSet (startTable C lf pass w.vault) q with
      | .error e => (some e, w)
      | .ok db => vaultFileSave C sf n pass db w :=
  rfl

/-- Errors leave the file alone; success means the edited table was saved. -/
theorem set_cases (sf : SaveFaults) (n : Nat) (pass : CStr) (q : Request) (w : World) :
    ((vaultSetSecret C lf sf n pass q w).1 ≠ none ∧ (vaultSetSecret C lf sf n pass q w).2.vault = w.vault) ∨
      ((vaultSetSecret C lf sf n pass q w).1 = none ∧ n + 5 < 256 ∧
        ∃ db p, vaultDbSet (startTable C lf pass w.vault) q = .ok db ∧ vaultDbSerialize db = .ok p ∧
          ∀ R, Loads C pass (vaultSetSecret C lf sf n pass q w).2.vault R ↔
            (∀ r ∈ db.records, r.key.length ≠ 0) ∧ R = db.records) := by
  rw [vaultSetSecret_eq]
  cases hset : vaultDbSet (startTable C lf pass w.vault) q with
  | error e => exact .inl ⟨by simp, rfl⟩
  | ok db =>
    rcases save_cases C sf n pass db w with h | ⟨hok, hn, ⟨p, hp⟩, hloads⟩
    · exact .inl h
    · exact .inr ⟨hok, hn, db, p, rfl, hp, hloads⟩

/-- An update keeps its word under every course of the save exactly if the table it would save, where it can be
saved, loads to what was asked for. -/
theorem kept_iff (n : Nat) (pass : CStr) (q : Request) (w : World) :
    (∀ sf, Kept C pass q w.vault (vaultSetSecret C lf sf n pass q w)) ↔
      ∀ db p, n + 5 < 256 → vaultDbSet (startTable C lf pass w.vault) q = .ok db → vaultDbSerialize db = .ok p →
        w.vault = none ∨ ∃ r R, q.record = some r ∧ Loads C pass w.vault R ∧
          (∀ x ∈ db.records, x.key.length ≠ 0) ∧ withRecord r R = db.records := by
  constructor
  · intro h db p hn hset hp
    have hok : (vaultSetSecret C lf calm n pass q w).1 = none := by
      rw [vaultSetSecret_eq, hset]
      exact save_calm w hn hp
    rcases set_cases C lf calm n pass q w with ⟨herr, _⟩ | ⟨_, _, db', _, hset', _, hloads⟩
    · exact absurd hok herr
    obtain rfl := Except.ok.inj (hset.symm.trans hset')
    simpa only [hloads] using (h calm).1 hok
  intro h sf
  rcases set_cases C lf sf n pass q w with ⟨herr, hsame⟩ | ⟨hok, hn, db, p, hset, hp, hloads⟩
  · exact ⟨fun hok => absurd hok herr, fun _ => hsame⟩
  · exact ⟨fun _ => by simpa only [hloads] using h db p hn hset hp, fun herr => absurd hok herr⟩

variable {C}

/-- **When an update of the vault keeps the other records.** For every file,
passphrase, request and course of the load, the update keeps its word under
every course of the save exactly in the cases of `Spared`. -/
theorem vault_update_keeps (C : Crypto) (lf : LoadFaults) (n : Nat) (pass : CStr) (q : Request) (w : World) :
    (∀ sf, Kept C pass q w.vault (vaultSetSecret C lf sf n pass q w)) ↔ Spared C lf n pass q w := by
  rw [kept_iff, Spared]
  by_cases hfile : w.vault = none
  · simp [hfile]
  by_cases hn : 256 ≤ n + 5
  · simp [hn, Nat.not_lt.2 hn]
  cases hr : q.record with
  | none => simp [set_inval hr]
  | some r =>
    obtain ⟨hkey, hpos⟩ := record_some hr
    simp only [hfile, hn, Nat.not_le.1 hn, false_or, reduceCtorEq, Option.some.injEq, true_implies]
    cases hl : vaultFileLoad C lf w.vault pass with
    | ok db₀ =>
      simp only [startTable, hl]
      constructor
      · intro h
        by_contra hnot
        simp only [not_or, not_forall, not_not] at hnot
        obtain ⟨⟨x, hx, hzero⟩, db, p, hset, hp⟩ := hnot
        obtain ⟨_, _, -, -, hall, -⟩ := h db p hset hp
        have hne : x.key ≠ r.key := by
          intro e
          rw [e, hkey] at hzero
          exact hpos hzero
        exact hall x (set_ok hr hset ▸ mem_withRecord hx hne) hzero
      rintro (hall | hno) db p hset hp
      · refine ⟨r, _, rfl, ⟨db₀, load_of_faults hl, rfl⟩, fun x hx => ?_, (set_ok hr hset).symm⟩
        rcases of_mem_withRecord (set_ok hr hset ▸ hx) with rfl | hx
        · rwa [hkey]
        · exact hall x hx
      · exact absurd hp (hno db p hset)
    | error e =>
      obtain ⟨db, hset, hone, p, hp⟩ := set_empty hr
      simp only [startTable, hl, ← hkey, ← withRecord_eq_singleton]
      constructor
      · intro h
        obtain ⟨_, R, rfl, hR, -, hsame⟩ := h db p hset hp
        exact ⟨R, hR, hsame.trans hone⟩
      rintro ⟨R, hR, hsame⟩ db' _ hset' _
      obtain rfl := Except.ok.inj (hset.symm.trans hset')
      rw [hone]
      exact ⟨r, R, rfl, hR, by simpa [hkey] using hpos, hsame⟩

/-- A cipher that only compares keys. -/
def keyCompare : Crypto where
  kdf pass _ _ := pass
  lock _ _ _ p := p
  tag k _ _ _ := (k ++ List.replicate 16 0).take 16
  unlock k _ _ t c := if t = (k ++ List.replicate 16 0).take 16 then some c else none
  length_lock _ _ _ _ := rfl
  length_tag _ _ _ _ := by simp
  unlock_lock _ _ _ _ := if_pos rfl

def setCall (pass key secret : Bytes) (w : World) : Option VaultErr × World :=
  vaultSetSecret keyCompare {} calm 10 (cstr pass) { key := cstr key, secretType := 1, secret, note := none } w

/-- A vault with one secret, saved under the passphrase "a". -/
def savedWorld : World := (setCall [97] [119] [1, 2, 3] { vault := none, tmp := none }).2

/-- Setting another secret under the passphrase "b" succeeds and destroys the vault of "a". -/
theorem vault_update_destroys :
    (∃ r, Loads keyCompare (cstr [97]) savedWorld.vault [r]) ∧ (setCall [98] [120] [4] savedWorld).1 = none ∧
      ¬ Kept keyCompare (cstr [98]) { key := cstr [120], secretType := 1, secret := [4], note := none } savedWorld.vault
        (setCall [98] [120] [4] savedWorld) := by
  have hok : (setCall [98] [120] [4] savedWorld).1 = none := by decide +kernel
  refine ⟨?_, hok, fun h => ?_⟩
  · have hone : ((vaultFileLoad keyCompare {} savedWorld.vault (cstr [97])).toOption.map fun db => db.records.length) =
        some 1 := by
      decide +kernel
    obtain ⟨db, hdb, hlen⟩ := Option.map_eq_some_iff.1 hone
    obtain ⟨r, hr⟩ := length_eq_one_iff.1 hlen
    refine ⟨r, db, ?_, hr⟩
    cases hl : vaultFileLoad keyCompare {} savedWorld.vault (cstr [97]) with
    | error e =>
      rw [hl] at hdb
      cases hdb
    | ok db' =>
      rw [hl] at hdb
      exact congrArg Except.ok (Option.some.inj hdb)
  rcases h.1 hok with hnone | ⟨_, R, _, ⟨db, hdb, _⟩, _⟩
  · exact absurd hnone (by decide +kernel)
  have hwrong : (vaultFileLoad keyCompare {} savedWorld.vault (cstr [98])).toOption.isNone = true := by
    decide +kernel
  rw [hdb] at hwrong
  cases hwrong

end Fortress.Vault
