import AuraProtocol.Crypto.Primitives

/-!
# An instance of the primitives

The laws of `Crypto.Correct` are consistent: `Crypto.transparent` satisfies them.
It hides nothing (a public key contains its private key), but it keeps apart what
the runs below keep apart, since its outputs depend on the beginning of every
input through a rolling hash.  Concrete runs of the protocol are evaluated over
it.
-/

namespace AuraProtocol

open Fallible DhValidator List

/-- A rolling hash modulo a Mersenne prime. -/
def rollingHash (bs : Bytes) : ℕ := bs.foldl (fun h b => (h * 257 + b.toNat + 1) % (2 ^ 61 - 1)) 7

/-- `n` bytes that start with a one and depend on the whole input. -/
def stretch (n : ℕ) (bs : Bytes) : Bytes := (1 :: leBytes n ((2 * rollingHash bs + 1) ^ 13)).take n

/-- The first `n` bytes of a string, filled up with zeros. -/
def fit (n : ℕ) (bs : Bytes) : Bytes := (bs ++ List.replicate n 0).take n

@[simp] theorem length_stretch (n : ℕ) (bs : Bytes) : (stretch n bs).length = n := by
  rw [stretch, length_take, length_cons, length_leBytes, min_eq_left (Nat.le_succ n)]

@[simp] theorem length_fit (n : ℕ) (bs : Bytes) : (fit n bs).length = n := by
  rw [fit, length_take, length_append, length_replicate,
    min_eq_left (Nat.le_add_left n _)]

/-- The lengths and first bytes of some strings: enough to tell runs apart. -/
def framed (parts : List Bytes) : Bytes :=
  (parts.map fun p => leBytes 4 p.length ++ p.take 160).flatten

/-- Primitives without any secrecy. -/
def Crypto.transparent : Crypto where
  sha256 m := stretch 32 m
  length_sha256 _ := length_stretch 32 _
  hmacSha256 k m := stretch 32 (framed [k, m])
  length_hmacSha256 _ _ := length_stretch 32 _
  hkdfExtract salt ikm := stretch 32 (framed [salt.getD [], ikm])
  length_hkdfExtract _ _ := length_stretch 32 _
  hkdfExpand prk info n := stretch n (framed [prk, info])
  length_hkdfExpand _ _ _ := length_stretch _ _
  aeadSeal k n m ad := some (m ++ stretch aesGcmTagBytes (framed [k, n, ad, m]))
  aeadOpen k n ct ad :=
    let m := ct.take (ct.length - aesGcmTagBytes)
    if ct.drop (ct.length - aesGcmTagBytes) = stretch aesGcmTagBytes (framed [k, n, ad, m])
    then some m else none
  x25519Public sk := 2 :: (fit 30 sk ++ [0])
  length_x25519Public _ := by
    rw [length_cons, length_append, length_fit, length_singleton]
  x25519 sk pk := 1 :: fit 31 (List.zipWith (· + ·) (fit 30 sk) (fit 30 pk.tail))
  length_x25519 _ _ := by rw [length_cons, length_fit]
  kemKeygen r := (fit 64 r, 1 :: fit 1183 (fit 64 r))
  length_kemKeygen_secret _ := length_fit _ _
  length_kemKeygen_public _ := by rw [length_cons, length_fit]
  chaCha20Rng seed := seed
  kemReencode pk := if pk.length = kyberPublicKeyBytes then some pk else none
  kemEncaps pk r := (1 :: fit 1087 (fit 31 r), stretch 32 (framed [pk.tail.take 64, fit 31 r]))
  length_kemEncaps_ciphertext _ _ := by rw [length_cons, length_fit]
  length_kemEncaps_secret _ _ := length_stretch 32 _
  kemDecaps sk ct := stretch 32 (framed [sk, ct.tail.take 31])
  length_kemDecaps _ _ := length_stretch 32 _
  ed25519Keypair seed := fit 64 seed
  length_ed25519Keypair _ := length_fit _ _
  ed25519KeypairValid sk := sk.length = ed25519SecretKeyBytes
  ed25519KeyValid _ := true
  ed25519Public sk := 1 :: fit 31 sk
  length_ed25519Public _ := by rw [length_cons, length_fit]
  ed25519Sign sk m := stretch 64 (framed [1 :: fit 31 sk, m])
  length_ed25519Sign _ _ := length_stretch 64 _
  ed25519Verify pk m sig := sig = stretch 64 (framed [pk, m])
  blake2b256 k p m := stretch 32 (framed [k, p, m])
  length_blake2b256 _ _ _ := length_stretch 32 _

theorem leNat_append_zero (bs : Bytes) : leNat (bs ++ [0]) = leNat bs := by
  induction bs with
  | nil => rfl
  | cons b bs ih => rw [cons_append, leNat, leNat, ih]

/-- No point of small order starts with a two. -/
theorem hasSmallOrder_of_head {bs : Bytes} : hasSmallOrder (2 :: bs) = false := by
  have hpoints : ∀ p ∈ smallOrderPoints, p.head? ≠ some 2 := by decide
  rw [hasSmallOrder, Bool.eq_false_iff, ne_eq, contains_iff_mem]
  exact fun hmem => hpoints _ hmem rfl

/-- A zero last byte makes the last word smaller than the prime's, so the borrow stays. -/
theorem isValidCurve25519Point_of_last {mid : Bytes} (h : mid.length = 30) :
    isValidCurve25519Point (2 :: (mid ++ [0])) = true := by
  have hdrop : (2 :: (mid ++ [0])).drop 28 = mid.drop 27 ++ [0] := by
    rw [drop_succ_cons, drop_append_of_le_length (by omega)]
  have hword : word (2 :: (mid ++ [0])) 7 < 256 ^ 3 := by
    rw [word, hdrop, take_of_length_le (by simp [h]), leNat_append_zero]
    exact (leNat_lt _).trans_le (by rw [length_drop, h])
  have hprime : word curve25519Prime 7 = 0x7FFFFFFF := by decide
  rw [isValidCurve25519Point, decide_eq_true_iff]
  refine ⟨by simp [h, x25519PublicKeyBytes], ?_⟩
  rw [show List.range 8 = List.range 7 ++ [7] from rfl, foldl_append, foldl_cons,
    foldl_nil, if_pos]
  rw [hprime]
  omega

/-- A key that starts with a two and ends with a zero byte is a field element of large order. -/
theorem validateX25519PublicKey_of_shape {mid : Bytes} (h : mid.length = 30) :
    validateX25519PublicKey (2 :: (mid ++ [0])) = .ok () := by
  rw [validateX25519PublicKey, except_seq_eq_ok, except_seq_eq_ok, require_eq_ok,
    require_eq_ok, require_eq_ok]
  exact ⟨by simp [h, x25519PublicKeyBytes], hasSmallOrder_of_head, isValidCurve25519Point_of_last h⟩

theorem take_fit {n k : ℕ} {bs : Bytes} (h : bs.length = n) (hk : n ≤ k) :
    (fit k bs).take n = bs := by
  rw [fit, take_take, min_eq_left hk, take_left' h]

theorem Crypto.transparent_correct : Crypto.transparent.Correct where
  dh_comm a b := by
    have htail : ∀ x : Bytes, fit 30 (fit 30 x ++ [0]) = fit 30 x := fun x => by
      rw [fit, append_assoc, take_left' (length_fit 30 x)]
    change 1 :: fit 31 (List.zipWith (· + ·) (fit 30 a) (fit 30 (fit 30 b ++ [0]))) =
      1 :: fit 31 (List.zipWith (· + ·) (fit 30 b) (fit 30 (fit 30 a ++ [0])))
    rw [htail, htail, zipWith_comm_of_comm UInt8.add_comm]
  x25519Public_valid sk := validateX25519PublicKey_of_shape (length_fit 30 sk)
  aeadOpen_of_aeadSeal k n m ad ct h := by
    cases h
    have hlen : (m ++ stretch aesGcmTagBytes (framed [k, n, ad, m])).length - aesGcmTagBytes =
        m.length := by
      rw [length_append, length_stretch, Nat.add_sub_cancel]
    simp only [Crypto.transparent, hlen, take_left, drop_left, if_true]
  length_of_aeadSeal k n m ad ct h := by
    cases h
    rw [length_append, length_stretch]
  kemDecaps_kemEncaps r r' := by
    change stretch 32 (framed [fit 64 r, (fit 1087 (fit 31 r')).take 31]) =
      stretch 32 (framed [(fit 1183 (fit 64 r)).take 64, fit 31 r'])
    rw [take_fit (length_fit 31 r') (by decide), take_fit (length_fit 64 r) (by decide)]
  kemKeygen_valid r := by
    rw [KyberInterop.validatePublicKey_eq_ok]
    have hlen : (Crypto.transparent.kemKeygen r).2.length = kyberPublicKeyBytes :=
      Crypto.transparent.length_kemKeygen_public r
    exact ⟨hlen, rfl, if_pos hlen⟩
  kemEncaps_ne_zero pk r := rfl
  ed25519Verify_ed25519Sign sk m := by simp [Crypto.transparent]

theorem Crypto.transparent_seals : Crypto.transparent.Seals where
  aeadSeal_isSome _ _ _ _ _ _ _ _ := rfl

theorem Crypto.transparent_properKeys : Crypto.transparent.ProperKeys where
  dh_ne_zero _ _ := rfl
  ed25519Keypair_valid seed := by
    change decide ((fit 64 seed).length = _) = true
    rw [length_fit]
    rfl
  ed25519Public_valid _ _ := rfl
  ed25519Public_ne_zero _ _ := rfl

/-- Whether a function collides on finitely many queries can be evaluated. -/
theorem injOn_of_forall_mem {α β : Type} {f : α → β} {l : List α}
    (h : ∀ x ∈ l, ∀ y ∈ l, f x = f y → x = y) : Set.InjOn f {x | x ∈ l} :=
  fun x hx y hy hxy => h x hx y hy hxy

end AuraProtocol
