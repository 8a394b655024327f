/-
The signed package catalog (pkg/catalog.c). A catalog is a header, entries of
81 bytes sorted by package name, and records of 96 bytes with a key's hash and
a signature, sorted by that hash. Nothing is assumed of the hash or of the
signature scheme: the records have different hashes, so the keys they were
matched with are different too.
-/
import Fortress.Pkg.Digest
import Fortress.Pkg.Format

namespace Fortress.Pkg

open Codec List

def FPK_CATALOG_MAX : Nat := 256 * 1024

/-- 2026-01-01 and 2100-01-01, in seconds. -/
def CATALOG_TIME_MIN : Nat := 1767225600
def CATALOG_TIME_MAX : Nat := 4102444800

/-- `FORT-PKG-CAT-v1` and a zero byte. -/
def catalogDomain : Bytes := [70, 79, 82, 84, 45, 80, 75, 71, 45, 67, 65, 84, 45, 118, 49, 0]

/-- `crypto_sha256`, which may fail, and `crypto_ed25519_verify` of a signature, a key and a message. -/
structure CatalogCrypto where
  sha256 : Bytes → Option Bytes
  ed25519Verify : Bytes → Bytes → Bytes → Bool

/-- `fpk_catalog_policy`. -/
structure CatalogPolicy where
  repository : Bytes
  keys : List Bytes
  keyCount : Nat
  threshold : Nat
  rootVersion : Nat
  revisionFloor : Nat
  now : Nat
  floorSha256 : Bytes
  repository_length : repository.length = 16
  keys_length : keys.length = 8
  key_length : ∀ key ∈ keys, key.length = 32
  floor_length : floorSha256.length = 32

/-- `fpk_catalog`; `entries` starts at the first entry. -/
structure Catalog where
  entries : Bytes
  count : Nat
  revision : Nat
  sha256 : Bytes
deriving DecidableEq

/-- `fpk_catalog_target`. -/
structure CatalogTarget where
  package : Bytes
  build : Nat
  length : Nat
  sha256 : Bytes
deriving DecidableEq

/-! ## Checks -/

variable (policy : CatalogPolicy)

def CatalogPolicy.key (i : Nat) : Bytes := policy.keys.getD i []

/-- The keys in use are not zero and all different. -/
def policyKeysOk : Bool :=
  (List.range policy.keyCount).all fun i =>
    !zero (policy.key i) && (List.range i).all fun j => compare (policy.key i) (policy.key j) != .eq

def policyOk : Bool :=
  decide (1 ≤ policy.keyCount) && decide (policy.keyCount ≤ 8) && policy.threshold != 0 &&
    decide (policy.threshold ≤ policy.keyCount) && policy.rootVersion != 0 && !zero policy.repository &&
    decide (CATALOG_TIME_MIN ≤ policy.now) && decide (policy.now ≤ CATALOG_TIME_MAX)

def catalogCount (p : Bytes) : Nat := fromLe (slice p 64 2)
def catalogSignatures (p : Bytes) : Nat := fromLe (slice p 66 2)
def catalogRevision (p : Bytes) : Nat := fromLe (slice p 40 8)

/-- The length of what is signed: the header and the entries. -/
def catalogBody (p : Bytes) : Nat := 72 + 81 * catalogCount p

def catalogHeaderOk (p : Bytes) : Bool :=
  let issued := fromLe (slice p 48 8)
  let expires := fromLe (slice p 56 8)
  !(compare (slice p 0 16) catalogDomain != .eq || compare (slice p 16 16) policy.repository != .eq ||
    fromLe (slice p 32 8) != policy.rootVersion || catalogRevision p == 0 ||
    decide (catalogRevision p < policy.revisionFloor) || decide (issued < CATALOG_TIME_MIN) ||
    decide (issued > policy.now) || decide (expires ≤ policy.now) || decide (expires > CATALOG_TIME_MAX) ||
    catalogCount p == 0 || decide (catalogCount p > 256) || catalogSignatures p == 0 ||
    decide (catalogSignatures p > 8) || !zero (slice p 68 4) ||
    p.length != catalogBody p + 96 * catalogSignatures p)

/-- The length byte of entry `i`. -/
def entryLength (entries : Bytes) (i : Nat) : Nat := (entries.getD (81 * i) 0).toNat
variable (entries : Bytes) (i : Nat)

def entryName : Bytes := slice entries (81 * i + 1) (entryLength entries i)
def entryBuild : Nat := fromLe (slice entries (81 * i + 33) 8)
def entryBytes : Nat := fromLe (slice entries (81 * i + 41) 8)

def entryTarget : CatalogTarget where
  package := entryName entries i
  build := entryBuild entries i
  length := entryBytes entries i
  sha256 := slice entries (81 * i + 49) 32

/-- A round of the entry loop. -/
def entryOk : Bool :=
  decide (entryLength entries i ≤ 32) && fpkIdentityValid (entryName entries i) &&
    zero (slice entries (81 * i + 1 + entryLength entries i) (32 - entryLength entries i)) &&
    entryBuild entries i != 0 && decide (128 ≤ entryBytes entries i) &&
    decide (entryBytes entries i ≤ 128 + FPK_MANIFEST_MAX + FPK_COMPRESSED_MAX) &&
    !(i != 0 && compare (entryName entries (i - 1)) (entryName entries i) != .lt)

/-- The hash and the signature of record `i`. -/
def signerId (p : Bytes) (i : Nat) : Bytes := slice p (catalogBody p + 96 * i) 32
def signatureAt (p : Bytes) (i : Nat) : Bytes := slice p (catalogBody p + 96 * i + 32) 64

variable (C : CatalogCrypto) {a b : Bytes}

/-- The first key with this hash; a failed hash ends the search as an unknown key does. -/
def findKey (id : Bytes) : List Bytes → Option Bytes
  | [] => none
  | key :: keys =>
    match C.sha256 key with
    | none => none
    | some h => if h = id then some key else findKey id keys

/-- The loop over the signature records; `valid` counts them. -/
def signatureLoop (policy : CatalogPolicy) (p : Bytes) : List Nat → Nat → Option Nat
  | [], valid => some valid
  | i :: is, valid =>
    if i != 0 && compare (signerId p (i - 1)) (signerId p i) != .lt then none
    else
      match findKey C (signerId p i) (policy.keys.take policy.keyCount) with
      | none => none
      | some key =>
        if !C.ed25519Verify (signatureAt p i) key (p.take (catalogBody p)) then none
        else signatureLoop policy p is (valid + 1)

def fpkCatalogVerify (policy : CatalogPolicy) (p : Bytes) : Option Catalog :=
  if p.length < 72 || decide (p.length > FPK_CATALOG_MAX) || !policyOk policy then none
  else if !policyKeysOk policy then none
  else if !catalogHeaderOk policy p then none
  else if !(List.range (catalogCount p)).all (entryOk (p.drop 72)) then none
  else
    match C.sha256 p with
    | none => none
    | some hash =>
      if catalogRevision p == policy.revisionFloor && hash != policy.floorSha256 then none
      else
        match signatureLoop C policy p (List.range (catalogSignatures p)) 0 with
        | none => none
        | some valid =>
          if valid < policy.threshold then none
          else some { entries := p.drop 72, count := catalogCount p, revision := catalogRevision p, sha256 := hash }

def fpkCatalogFind (catalog : Catalog) (name : Bytes) : Option CatalogTarget :=
  if catalog.count == 0 || decide (catalog.count > 256) || !fpkIdentityValid name then none
  else
    ((List.range catalog.count).find? fun i => compare name (entryName catalog.entries i) == .eq).map
      (entryTarget catalog.entries)

/-! ## The order of names -/

theorem compare_eq : compare a b = .eq ↔ a = b := by
  induction a generalizing b with
  | nil => cases b <;> simp [compare]
  | cons x a ih =>
    cases b with
    | nil => simp [compare]
    | cons y b =>
      by_cases hxy : x = y
      · subst hxy
        simp [compare, ih]
      · by_cases hlt : x < y <;> simp [compare, hxy, hlt]

theorem compare_lt_trans {a b c : Bytes} (hab : compare a b = .lt) (hbc : compare b c = .lt) : compare a c = .lt := by
  induction a generalizing b c with
  | nil =>
    cases b with
    | nil => simp [compare] at hab
    | cons y b =>
      cases c with
      | nil => simp [compare] at hbc
      | cons z c => rfl
  | cons x a ih =>
    cases b with
    | nil => simp [compare] at hab
    | cons y b =>
      cases c with
      | nil => simp [compare] at hbc
      | cons z c =>
        rw [compare] at hab hbc ⊢
        by_cases hxy : x = y
        · subst hxy
          by_cases hxz : x = z
          · subst hxz
            simp only [ne_eq, not_true, if_false] at hab hbc ⊢
            exact ih hab hbc
          · simpa [hxz] using hbc
        have hlt : x < y := by
          by_contra hge
          simp [hxy, hge] at hab
        by_cases hyz : y = z
        · subst hyz
          simp [hxy, hlt]
        have hlt' : y < z := by
          by_contra hge
          simp [hyz, hge] at hbc
        have hxz : x < z := UInt8.lt_trans hlt hlt'
        have hne : x ≠ z := fun he => UInt8.lt_irrefl _ (he ▸ hxz)
        simp [hne, hxz]

theorem compare_lt_ne (h : compare a b = .lt) : a ≠ b := by
  intro he
  rw [compare_eq.2 he] at h
  cases h

variable {i n j : Nat} {f : Nat → Bytes}

theorem compare_sorted (h : ∀ i, i < n → i ≠ 0 → compare (f (i - 1)) (f i) = .lt) (hij : i < j)
    (hj : j < n) : compare (f i) (f j) = .lt := by
  induction j with
  | zero => omega
  | succ j ih =>
    have hstep : compare (f j) (f (j + 1)) = .lt := h (j + 1) hj (by omega)
    rcases Nat.lt_or_ge i j with hlt | hge
    · exact compare_lt_trans (ih hlt (by omega)) hstep
    obtain rfl : i = j := by omega
    exact hstep

theorem sorted_inj (h : ∀ i j, i < j → j < n → compare (f i) (f j) = .lt) (hi : i < n) (hj : j < n)
    (he : f i = f j) : i = j := by
  rcases Nat.lt_trichotomy i j with hlt | heq | hgt
  · exact absurd he (compare_lt_ne (h i j hlt hj))
  · exact heq
  · exact absurd he.symm (compare_lt_ne (h j i hgt hi))

/-! ## Signatures -/

variable {C}

theorem findKey_spec {id key : Bytes} {keys : List Bytes} (h : findKey C id keys = some key) :
    key ∈ keys ∧ C.sha256 key = some id := by
  induction keys with
  | nil => simp [findKey] at h
  | cons k keys ih =>
    rw [findKey] at h
    split at h
    · cases h
    rename_i d hd
    split at h
    · rename_i he
      cases h
      exact ⟨by simp, by rw [hd, he]⟩
    · obtain ⟨hmem, hid⟩ := ih h
      exact ⟨.tail _ hmem, hid⟩

/-- What one record that passes says. -/
structure Signed (C : CatalogCrypto) (policy : CatalogPolicy) (p : Bytes) (i : Nat) (key : Bytes) : Prop where
  order : i ≠ 0 → compare (signerId p (i - 1)) (signerId p i) = .lt
  known : key ∈ policy.keys.take policy.keyCount
  hashed : C.sha256 key = some (signerId p i)
  valid : C.ed25519Verify (signatureAt p i) key (p.take (catalogBody p)) = true

variable {p : Bytes} {policy : CatalogPolicy}

theorem signatureLoop_spec {is : List Nat} {m : Nat}
    (h : signatureLoop C policy p is n = some m) : m = n + is.length ∧ ∀ i ∈ is, ∃ key, Signed C policy p i key := by
  induction is generalizing n with
  | nil =>
    cases h
    exact ⟨rfl, by simp⟩
  | cons i is ih =>
    rw [signatureLoop] at h
    split at h
    · cases h
    rename_i horder
    split at h
    · cases h
    rename_i key hkey
    split at h
    · cases h
    rename_i hvalid
    obtain ⟨hm, hrest⟩ := ih h
    refine ⟨by simp only [length_cons]; omega, ?_⟩
    intro j hj
    rcases mem_cons.1 hj with rfl | hj
    · obtain ⟨hknown, hhash⟩ := findKey_spec hkey
      refine ⟨key, ?_, hknown, hhash, by simpa using hvalid⟩
      intro hne
      simpa [hne] using horder
    · exact hrest j hj

/-- The signers of a catalog, one for each record, are different keys. -/
theorem distinct_signers (h : ∀ i, i < n → ∃ key, Signed C policy p i key) :
    ∃ signers : List Bytes, signers.Nodup ∧ signers.length = n ∧
      ∀ key ∈ signers, ∃ i, i < n ∧ Signed C policy p i key := by
  have hsorted : ∀ i j, i < j → j < n → compare (signerId p i) (signerId p j) = .lt := by
    intro i j hij hj
    refine compare_sorted ?_ hij hj
    intro k hk hne
    obtain ⟨key, hs⟩ := h k hk
    exact hs.order hne
  have : ∀ m, m ≤ n → ∃ signers : List Bytes, signers.Nodup ∧ signers.length = m ∧
      ∀ key ∈ signers, ∃ i, i < m ∧ Signed C policy p i key := by
    intro m hm
    induction m with
    | zero => exact ⟨[], by simp⟩
    | succ m ih =>
      obtain ⟨signers, hnd, hlen, hall⟩ := ih (by omega)
      obtain ⟨key, hs⟩ := h m hm
      refine ⟨key :: signers, nodup_cons.2 ⟨?_, hnd⟩, by simp [hlen], ?_⟩
      · -- a key has one hash, and an earlier record has another
        intro hmem
        obtain ⟨i, hi, hs'⟩ := hall key hmem
        have he : signerId p i = signerId p m := Option.some.inj (hs'.hashed.symm.trans hs.hashed)
        exact compare_lt_ne (hsorted i m hi hm) he
      intro key' hkey'
      rcases mem_cons.1 hkey' with rfl | hmem
      · exact ⟨m, by omega, hs⟩
      obtain ⟨i, hi, hs'⟩ := hall key' hmem
      exact ⟨i, by omega, hs'⟩
  exact this n (Nat.le_refl n)

/-! ## Verified catalogs -/

/-- What a verified catalog passed. -/
structure Passed (C : CatalogCrypto) (policy : CatalogPolicy) (p : Bytes) (catalog : Catalog) : Prop where
  entries : catalog.entries = p.drop 72
  count : catalog.count = catalogCount p
  revision : catalog.revision = catalogRevision p
  header : catalogHeaderOk policy p = true
  each : ∀ i, i < catalogCount p → entryOk (p.drop 72) i = true
  hash : C.sha256 p = some catalog.sha256
  floor : catalogRevision p = policy.revisionFloor → catalog.sha256 = policy.floorSha256
  signed : ∀ i, i < catalogSignatures p → ∃ key, Signed C policy p i key
  enough : policy.threshold ≤ catalogSignatures p

variable {catalog : Catalog}

theorem fpkCatalogVerify_passed (h : fpkCatalogVerify C policy p = some catalog) : Passed C policy p catalog := by
  unfold fpkCatalogVerify at h
  split at h
  · cases h
  split at h
  · cases h
  split at h
  · cases h
  rename_i hheader
  split at h
  · cases h
  rename_i hentries
  split at h
  · cases h
  rename_i hash hhash
  split at h
  · cases h
  rename_i hfloor
  split at h
  · cases h
  rename_i valid hloop
  split at h
  · cases h
  rename_i henough
  cases h
  obtain ⟨hvalid, hsigned⟩ := signatureLoop_spec hloop
  have hentries : (range (catalogCount p)).all (entryOk (p.drop 72)) = true := by simpa using hentries
  refine ⟨rfl, rfl, rfl, by simpa using hheader, ?_, hhash, ?_, ?_, ?_⟩
  · intro i hi
    exact all_eq_true.1 hentries i (mem_range.2 hi)
  · intro he
    simpa [he] using hfloor
  · intro i hi
    exact hsigned i (mem_range.2 hi)
  · rw [length_range] at hvalid
    omega

theorem entryOk_valid {entries : Bytes} (h : entryOk entries i = true) :
    fpkIdentityValid (entryName entries i) = true ∧
      (i ≠ 0 → compare (entryName entries (i - 1)) (entryName entries i) = .lt) := by
  simp only [entryOk, Bool.and_eq_true, Bool.not_eq_true', Bool.and_eq_false_iff, bne_eq_false_iff_eq] at h
  obtain ⟨⟨⟨⟨⟨⟨-, hname⟩, -⟩, -⟩, -⟩, -⟩, horder⟩ := h
  exact ⟨hname, fun hne => horder.resolve_left hne⟩

theorem Passed.sorted (h : Passed C policy p catalog) (hij : i < j) (hj : j < catalog.count) :
    compare (entryName catalog.entries i) (entryName catalog.entries j) = .lt := by
  rw [h.count] at hj
  rw [h.entries]
  exact compare_sorted (fun k hk hne => (entryOk_valid (h.each k hk)).2 hne) hij hj

theorem Passed.headerBounds (h : Passed C policy p catalog) :
    policy.revisionFloor ≤ catalogRevision p ∧ catalogCount p ≠ 0 ∧ catalogCount p ≤ 256 ∧
      p.length = catalogBody p + 96 * catalogSignatures p := by
  have hh := h.header
  simp only [catalogHeaderOk, Bool.not_eq_true', Bool.or_eq_false_iff, decide_eq_false_iff_not, beq_eq_false_iff_ne,
    bne_eq_false_iff_eq] at hh
  obtain ⟨⟨⟨⟨⟨⟨⟨⟨⟨⟨⟨⟨⟨⟨-, -⟩, -⟩, -⟩, hfloor⟩, -⟩, -⟩, -⟩, -⟩, hpos⟩, hmax⟩, -⟩, -⟩, -⟩, hlen⟩ := hh
  exact ⟨by omega, hpos, by omega, hlen⟩

/-- The search returns an entry exactly when one has the name. -/
theorem Passed.find (h : Passed C policy p catalog)
    (name : Bytes) (target : CatalogTarget) : fpkCatalogFind catalog name = some target ↔
      ∃ i, i < catalog.count ∧ entryName catalog.entries i = name ∧ target = entryTarget catalog.entries i := by
  obtain ⟨-, hpos, hmax, -⟩ := h.headerBounds
  rw [← h.count] at hpos hmax
  have hinj : ∀ i j, i < catalog.count → j < catalog.count →
      entryName catalog.entries i = entryName catalog.entries j → i = j :=
    fun i j hi hj he => sorted_inj (fun _ _ => h.sorted) hi hj he
  have hvalid : ∀ i, i < catalog.count → fpkIdentityValid (entryName catalog.entries i) = true := by
    intro i hi
    rw [h.entries]
    exact (entryOk_valid (h.each i (h.count ▸ hi))).1
  have hcount : (catalog.count == 0 || decide (catalog.count > 256)) = false := by simp [hpos, hmax]
  constructor
  · intro hf
    unfold fpkCatalogFind at hf
    split at hf
    · cases hf
    obtain ⟨i, hi, rfl⟩ := Option.map_eq_some_iff.1 hf
    have hname := find?_some hi
    refine ⟨i, mem_range.1 (mem_of_find?_eq_some hi), ?_, rfl⟩
    exact (compare_eq.1 (by simpa using hname)).symm
  intro ⟨i, hi, hname, htarget⟩
  subst hname htarget
  have hscan : ((range catalog.count).find? fun j =>
      compare (entryName catalog.entries i) (entryName catalog.entries j) == .eq) = some i := by
    cases hf : (range catalog.count).find? fun j =>
        compare (entryName catalog.entries i) (entryName catalog.entries j) == .eq with
    | none =>
      have := find?_eq_none.1 hf i (mem_range.2 hi)
      simp [compare_eq.2 rfl] at this
    | some j =>
      have hj := mem_range.1 (mem_of_find?_eq_some hf)
      have he := find?_some hf
      rw [hinj i j hi hj (compare_eq.1 (by simpa using he))]
  simp [fpkCatalogFind, hcount, hvalid i hi, hscan]

/-- **A catalog that verifies can be trusted as far as the policy's keys.** At least the threshold of different
policy keys signed it, each with a signature in it over exactly the header and the entries. Its revision is
not below the floor, and at the floor it is the recorded catalog. Its entries are strictly sorted by name, so a
search returns the one entry with that name, or nothing when there is none. -/
theorem catalog_trust {policy : CatalogPolicy} {p : Bytes} {catalog : Catalog}
    (h : fpkCatalogVerify C policy p = some catalog) :
    (p.length = 72 + 81 * catalog.count + 96 * catalogSignatures p ∧
      ∃ signers : List Bytes, signers.Nodup ∧ policy.threshold ≤ signers.length ∧
        ∀ key ∈ signers, key ∈ policy.keys.take policy.keyCount ∧ ∃ i, i < catalogSignatures p ∧
          C.ed25519Verify (signatureAt p i) key (p.take (72 + 81 * catalog.count)) = true) ∧
    (policy.revisionFloor ≤ catalog.revision ∧ catalog.revision = catalogRevision p ∧
      (catalog.revision = policy.revisionFloor → C.sha256 p = some policy.floorSha256)) ∧
    (∀ i j, i < j → j < catalog.count →
      compare (entryName catalog.entries i) (entryName catalog.entries j) = .lt) ∧
    ∀ name target, fpkCatalogFind catalog name = some target ↔
      ∃ i, i < catalog.count ∧ entryName catalog.entries i = name ∧ target = entryTarget catalog.entries i ∧
        ∀ j, j < catalog.count → entryName catalog.entries j = name → j = i := by
  have hp := fpkCatalogVerify_passed h
  obtain ⟨hfloor, -, -, hlen⟩ := hp.headerBounds
  have hbody : catalogBody p = 72 + 81 * catalog.count := by rw [catalogBody, hp.count]
  refine ⟨⟨by rw [hlen, hbody], ?_⟩, ⟨by rw [hp.revision]; exact hfloor, hp.revision, ?_⟩, fun i j => hp.sorted, ?_⟩
  · obtain ⟨signers, hnd, hcount, hall⟩ := distinct_signers hp.signed
    refine ⟨signers, hnd, by rw [hcount]; exact hp.enough, ?_⟩
    intro key hkey
    obtain ⟨i, hi, hs⟩ := hall key hkey
    rw [← hbody]
    exact ⟨hs.known, i, hi, hs.valid⟩
  · intro he
    rw [hp.hash, hp.floor (hp.revision ▸ he)]
  intro name target
  rw [hp.find]
  constructor
  · intro ⟨i, hi, hname, ht⟩
    refine ⟨i, hi, hname, ht, ?_⟩
    intro j hj hjname
    exact sorted_inj (fun _ _ => hp.sorted) hj hi (hjname.trans hname.symm)
  · intro ⟨i, hi, hname, ht, _⟩
    exact ⟨i, hi, hname, ht⟩

/-- A signature is the key and the hash of the message. -/
def pairCrypto : CatalogCrypto := ⟨fun m => some (digest polySha m), fun sig key m => sig == key ++ digest polySha m⟩

def pairKey (k : UInt8) : Bytes := List.replicate 32 k

/-- Revision 5, with the packages `a` and `b`. -/
def pairBody : Bytes :=
  catalogDomain ++ List.replicate 16 1 ++ le 1 8 ++ le 5 8 ++ le 1767225600 8 ++ le 1767225602 8 ++ le 2 2 ++ le 2 2 ++
    List.replicate 4 0 ++
    [97, 98].flatMap fun c => [1, c] ++ List.replicate 31 0 ++ le 1 8 ++ le 128 8 ++ List.replicate 32 0

def pairBytes : Bytes :=
  pairBody ++ [1, 2].flatMap fun k => digest polySha (pairKey k) ++ (pairKey k ++ digest polySha pairBody)

/-- Two keys, both needed, and the floor at this very catalog. -/
def pairPolicy : CatalogPolicy where
  repository := List.replicate 16 1
  keys := [2, 1, 0, 0, 0, 0, 0, 0].map pairKey
  keyCount := 2
  threshold := 2
  rootVersion := 1
  revisionFloor := 5
  now := 1767225601
  floorSha256 := digest polySha pairBytes
  repository_length := by decide
  keys_length := by decide
  key_length := by decide
  floor_length := by decide +kernel

def pairCatalog : Catalog := ⟨pairBytes.drop 72, 2, 5, digest polySha pairBytes⟩

theorem catalog_trust_pair :
    fpkCatalogVerify pairCrypto pairPolicy pairBytes = some pairCatalog ∧
      (∃ signers : List Bytes, signers.Nodup ∧ 2 ≤ signers.length ∧ ∀ key ∈ signers, key ∈ [2, 1].map pairKey) ∧
      fpkCatalogFind pairCatalog [98] = some (entryTarget pairCatalog.entries 1) := by
  have h : fpkCatalogVerify pairCrypto pairPolicy pairBytes = some pairCatalog := by decide +kernel
  obtain ⟨⟨-, signers, hnd, hlen, hall⟩, -, -, hfind⟩ := catalog_trust h
  exact ⟨h, ⟨signers, hnd, hlen, fun key hkey => (hall key hkey).1⟩,
    (hfind _ _).2 ⟨1, by decide, by decide +kernel, rfl, by decide +kernel⟩⟩

end Fortress.Pkg
