import AuraProtocol.Crypto.Primitives

/-!
# The key ratchet of a media stream

`protocol/voip/key_ratchet.rs`.  A stream has a chain of keys, one per generation; the
key of a frame is derived from the chain key of its generation and the frame's counter.
The receiver moves forward speculatively and keeps the new chain key only once a frame
has been authenticated.

Keys are kept in secure memory of their exact size, and HKDF cannot fail for it, so keys
are byte strings with their length and the derivations are total.
-/

namespace AuraProtocol.Voip

open Fallible

def voipMediaKeyBytes : ℕ := 32
def voipNoncePrefixBytes : ℕ := 4
def maxRatchetGeneration : ℕ := 0x00FFFFFF
def maxSkippedRatchetGenerations : ℕ := 8
def voipRatchetChainInfo : Bytes := ascii "Aura-VoIP-RatchetChain"
def voipNextChainInfo : Bytes := ascii "Aura-VoIP-NextChain"
def voipFrameKeyInfo : Bytes := ascii "Aura-VoIP-FrameKey"

/-- A key in secure memory. -/
abbrev Key := { k : Bytes // k.length = voipMediaKeyBytes }

/-- The first bytes of the nonces of a stream. -/
abbrev NoncePrefix := { n : Bytes // n.length = voipNoncePrefixBytes }

/-- `HkdfSha256::derive_key_bytes` for a key of 32 bytes. -/
def derive (c : Crypto) (ikm salt info : Bytes) : Key :=
  ⟨c.hkdfExpand (HkdfSha256.extract c salt ikm) info 32, c.length_hkdfExpand _ _ _⟩

structure MediaKeyRatchet where
  chainKey : Key
  generation : ℕ
  noncePrefix : NoncePrefix
  deriving DecidableEq

structure RatchetSnapshot where
  chainBytes : Key
  generation : ℕ
  deriving DecidableEq

/-- The salt of a generation. -/
def generationSalt (noncePrefix : NoncePrefix) (generation : ℕ) : Bytes :=
  noncePrefix.1 ++ leBytes 4 generation

/-- `derive_at_generation`: the key of a generation and the chain key of the next. -/
def deriveAtGeneration (c : Crypto) (chain : Key) (generation : ℕ) (noncePrefix : NoncePrefix) :
    Key × Key :=
  let salt := generationSalt noncePrefix generation
  (derive c chain.1 salt voipRatchetChainInfo, derive c chain.1 salt voipNextChainInfo)

def deriveFrameKeyAtGeneration (c : Crypto) (chain : Key) (generation : ℕ)
    (noncePrefix : NoncePrefix) (frameCounter : ℕ) : Key :=
  derive c (deriveAtGeneration c chain generation noncePrefix).1.1 (leBytes 8 frameCounter)
    voipFrameKeyInfo

/-- The loop of `speculative_sync_to`. -/
def skipGenerations (c : Crypto) (noncePrefix : NoncePrefix) : ℕ → RatchetSnapshot → RatchetSnapshot
  | 0, snapshot => snapshot
  | count + 1, snapshot =>
    skipGenerations c noncePrefix count
      ⟨(deriveAtGeneration c snapshot.chainBytes snapshot.generation noncePrefix).2,
        snapshot.generation + 1⟩

namespace MediaKeyRatchet

def new (initialKey : Key) (noncePrefix : NoncePrefix) : MediaKeyRatchet :=
  ⟨initialKey, 0, noncePrefix⟩

def fromState (chainBytes : Bytes) (generation : ℕ) (noncePrefix : NoncePrefix) :
    Except ProtocolError MediaKeyRatchet :=
  if h : chainBytes.length = voipMediaKeyBytes then .ok ⟨⟨chainBytes, h⟩, generation, noncePrefix⟩
  else .error (.voipMedia "invalid ratchet chain key size")

def snapshot (r : MediaKeyRatchet) : RatchetSnapshot := ⟨r.chainKey, r.generation⟩

def advanceGeneration (c : Crypto) (r : MediaKeyRatchet) : Except ProtocolError MediaKeyRatchet := do
  require (r.generation < maxRatchetGeneration)
    (.voipMedia "media key ratchet generation exhausted")
  .ok { r with
    chainKey := (deriveAtGeneration c r.chainKey r.generation r.noncePrefix).2
    generation := r.generation + 1 }

def frameKey (c : Crypto) (r : MediaKeyRatchet) (frameCounter : ℕ) : Key :=
  deriveFrameKeyAtGeneration c r.chainKey r.generation r.noncePrefix frameCounter

def speculativeSyncTo (c : Crypto) (r : MediaKeyRatchet) (targetGeneration : ℕ) :
    Except ProtocolError RatchetSnapshot := do
  require (r.generation ≤ targetGeneration) (.voipMedia
    s!"cannot ratchet backwards: current={r.generation}, target={targetGeneration}")
  let skipCount := targetGeneration - r.generation
  require (skipCount ≤ maxSkippedRatchetGenerations) (.voipMedia
    s!"ratchet skip too large: {skipCount} exceeds max {maxSkippedRatchetGenerations}")
  .ok (skipGenerations c r.noncePrefix skipCount r.snapshot)

def speculativeFrameKey (c : Crypto) (r : MediaKeyRatchet) (targetGeneration frameCounter : ℕ) :
    Except ProtocolError (Key × RatchetSnapshot) := do
  let snapshot ← speculativeSyncTo c r targetGeneration
  .ok (deriveFrameKeyAtGeneration c snapshot.chainBytes snapshot.generation r.noncePrefix
    frameCounter, snapshot)

def commitSnapshot (r : MediaKeyRatchet) (snapshot : RatchetSnapshot) : MediaKeyRatchet :=
  { r with chainKey := snapshot.chainBytes, generation := snapshot.generation }

def reset (newKey : Key) (newNoncePrefix : NoncePrefix) : MediaKeyRatchet :=
  ⟨newKey, 0, newNoncePrefix⟩

end MediaKeyRatchet

/-! ## The chain of a stream -/

/-- The chain key of a generation, from the first one. -/
def chainAt (c : Crypto) (initialKey : Key) (noncePrefix : NoncePrefix) : ℕ → Key
  | 0 => initialKey
  | generation + 1 =>
    (deriveAtGeneration c (chainAt c initialKey noncePrefix generation) generation noncePrefix).2

/-- The ratchet of a stream in some generation. -/
def ratchetAt (c : Crypto) (initialKey : Key) (noncePrefix : NoncePrefix) (generation : ℕ) :
    MediaKeyRatchet :=
  ⟨chainAt c initialKey noncePrefix generation, generation, noncePrefix⟩

variable {c : Crypto} {initialKey : Key} {noncePrefix : NoncePrefix} {generation : ℕ}

theorem advanceGeneration_ratchetAt {r : MediaKeyRatchet}
    (h : (ratchetAt c initialKey noncePrefix generation).advanceGeneration c = .ok r) :
    r = ratchetAt c initialKey noncePrefix (generation + 1) := by
  obtain ⟨-, heq⟩ := except_seq_eq_ok.mp h
  exact (Except.ok.inj heq).symm

theorem skipGenerations_chainAt (count : ℕ) :
    skipGenerations c noncePrefix count ⟨chainAt c initialKey noncePrefix generation, generation⟩ =
      ⟨chainAt c initialKey noncePrefix (generation + count), generation + count⟩ := by
  induction count generalizing generation with
  | zero => rfl
  | succ count ih =>
    rw [skipGenerations]
    refine (@ih (generation + 1)).trans ?_
    rw [Nat.add_assoc, Nat.add_comm 1]

/-- The receiver can move to the generations from its own up to the eighth after it. -/
theorem speculativeSyncTo_ratchetAt {target : ℕ} {snapshot : RatchetSnapshot} :
    (ratchetAt c initialKey noncePrefix generation).speculativeSyncTo c target = .ok snapshot ↔
      (generation ≤ target ∧ target ≤ generation + maxSkippedRatchetGenerations) ∧
        snapshot = (ratchetAt c initialKey noncePrefix target).snapshot := by
  have hskipped : generation ≤ target →
      skipGenerations c noncePrefix (target - generation)
          ⟨chainAt c initialKey noncePrefix generation, generation⟩ =
        (ratchetAt c initialKey noncePrefix target).snapshot := by
    intro hle
    rw [skipGenerations_chainAt, Nat.add_sub_cancel' hle]
    rfl
  rw [MediaKeyRatchet.speculativeSyncTo, except_seq_eq_ok, require_eq_ok]
  dsimp only
  rw [except_seq_eq_ok, require_eq_ok]
  constructor
  · rintro ⟨hle, hskip, heq⟩
    have hskip' : target - generation ≤ maxSkippedRatchetGenerations := hskip
    exact ⟨⟨hle, by omega⟩, (Except.ok.inj heq).symm.trans (hskipped hle)⟩
  · rintro ⟨⟨hle, hle'⟩, rfl⟩
    have hskip : target - generation ≤ maxSkippedRatchetGenerations := by omega
    exact ⟨hle, hskip, congrArg Except.ok (hskipped hle)⟩

theorem speculativeFrameKey_ratchetAt {target frameCounter : ℕ} {out : Key × RatchetSnapshot} :
    (ratchetAt c initialKey noncePrefix generation).speculativeFrameKey c target frameCounter =
        .ok out ↔
      (generation ≤ target ∧ target ≤ generation + maxSkippedRatchetGenerations) ∧
        out = ((ratchetAt c initialKey noncePrefix target).frameKey c frameCounter,
          (ratchetAt c initialKey noncePrefix target).snapshot) := by
  simp only [MediaKeyRatchet.speculativeFrameKey, except_bind_eq_ok, speculativeSyncTo_ratchetAt,
    Except.ok.injEq, and_assoc, exists_and_left, existsAndEq, true_and, @eq_comm _ out]
  rfl

/-- Committing the snapshot of a generation moves the receiver's ratchet there. -/
theorem commitSnapshot_ratchetAt (target : ℕ) :
    (ratchetAt c initialKey noncePrefix generation).commitSnapshot
        (ratchetAt c initialKey noncePrefix target).snapshot =
      ratchetAt c initialKey noncePrefix target := rfl

end AuraProtocol.Voip
