import AuraProtocol.Crypto.Instance
import AuraProtocol.Session.Keys
import Mathlib.Data.Sym.Sym2

/-!
# What the identity binding binds

`compute_identity_binding_hash` sorts the Ed25519 keys of the two parties and, apart from them,
the X25519 keys, and hashes the four.  So the hash does not depend on who is local, and it
determines the two Ed25519 keys and the two X25519 keys.  Which X25519 key belongs to which
Ed25519 key it does not say: `bindingHash_binds_iff` names the pairs of identities that it
confuses.
-/

namespace AuraProtocol.Session

open Fallible

/-- The public identity keys of a party. -/
@[ext]
structure PartyKeys where
  ed25519 : Bytes
  x25519 : Bytes
  length_ed25519 : ed25519.length = ed25519PublicKeyBytes
  length_x25519 : x25519.length = x25519PublicKeyBytes

namespace PartyKeys

variable {c : Crypto} {a b a' b' : PartyKeys}

/-- `compute_identity_binding_hash` of a local party and its peer. -/
def bindingHash (c : Crypto) (a b : PartyKeys) : Except ProtocolError Bytes :=
  computeIdentityBindingHash c a.ed25519 a.x25519 b.ed25519 b.x25519

/-- Two keys, the smaller one first. -/
def sorted (u v : Bytes) : Bytes := if v < u then v ++ u else u ++ v

/-- What is hashed. -/
def bindingInput (a b : PartyKeys) : Bytes :=
  identityBindingInfo ++ sorted a.ed25519 b.ed25519 ++ sorted a.x25519 b.x25519

theorem bindingHash_eq (c : Crypto) (a b : PartyKeys) :
    bindingHash c a b = .ok (c.sha256 (bindingInput a b)) := by
  rw [bindingHash, computeIdentityBindingHash, except_seq_eq_ok, except_seq_eq_ok, require_eq_ok,
    require_eq_ok]
  exact ⟨⟨a.length_ed25519, b.length_ed25519⟩, ⟨a.length_x25519, b.length_x25519⟩, rfl⟩

/-! ## Sorted keys -/

theorem sorted_comm (u v : Bytes) : sorted u v = sorted v u := by
  rw [sorted, sorted]
  by_cases huv : u < v
  · rw [if_neg (List.lt_asymm huv), if_pos huv]
  · by_cases hvu : v < u
    · rw [if_pos hvu, if_neg huv]
    · rw [List.le_antisymm hvu huv]

/-- The sorted keys are one of the two orders. -/
theorem exists_sorted_eq (u v : Bytes) : ∃ p q, sorted u v = p ++ q ∧ s(p, q) = s(u, v) := by
  rw [sorted]
  split_ifs
  · exact ⟨v, u, rfl, Sym2.eq_swap⟩
  · exact ⟨u, v, rfl, rfl⟩

/-- Sorted keys of one length stand for the unordered pair. -/
theorem sorted_eq_iff {n : ℕ} {u v u' v' : Bytes} (hu : u.length = n) (hv : v.length = n)
    (hu' : u'.length = n) (hv' : v'.length = n) :
    sorted u v = sorted u' v' ↔ s(u, v) = s(u', v') := by
  constructor
  · intro h
    obtain ⟨p, q, hpq, hpair⟩ := exists_sorted_eq u v
    obtain ⟨p', q', hpq', hpair'⟩ := exists_sorted_eq u' v'
    have hp : p.length = n := by
      obtain ⟨rfl, -⟩ | ⟨rfl, -⟩ := Sym2.eq_iff.mp hpair
      · exact hu
      · exact hv
    have hp' : p'.length = n := by
      obtain ⟨rfl, -⟩ | ⟨rfl, -⟩ := Sym2.eq_iff.mp hpair'
      · exact hu'
      · exact hv'
    rw [hpq, hpq'] at h
    obtain ⟨rfl, rfl⟩ := List.append_inj h (hp.trans hp'.symm)
    exact hpair.symm.trans hpair'
  · intro h
    obtain ⟨rfl, rfl⟩ | ⟨rfl, rfl⟩ := Sym2.eq_iff.mp h
    · rfl
    · exact sorted_comm _ _

theorem length_sorted (u v : Bytes) : (sorted u v).length = u.length + v.length := by
  rw [sorted]
  split_ifs <;> simp [Nat.add_comm]

/-- The hashed bytes determine the Ed25519 keys and the X25519 keys, and nothing else. -/
theorem bindingInput_eq_iff :
    bindingInput a b = bindingInput a' b' ↔
      s(a.ed25519, b.ed25519) = s(a'.ed25519, b'.ed25519) ∧
        s(a.x25519, b.x25519) = s(a'.x25519, b'.x25519) := by
  rw [← sorted_eq_iff a.length_ed25519 b.length_ed25519 a'.length_ed25519 b'.length_ed25519,
    ← sorted_eq_iff a.length_x25519 b.length_x25519 a'.length_x25519 b'.length_x25519,
    bindingInput, bindingInput, List.append_assoc, List.append_assoc, List.append_right_inj]
  constructor
  · intro h
    refine List.append_inj h ?_
    rw [length_sorted, length_sorted, a.length_ed25519, b.length_ed25519, a'.length_ed25519,
      b'.length_ed25519]
  · rintro ⟨hed, hx⟩
    rw [hed, hx]

/-! ## What the hash confuses -/

/-- The Ed25519 key of one party with the X25519 key of the other. -/
def withX25519 (a b : PartyKeys) : PartyKeys :=
  ⟨a.ed25519, b.x25519, a.length_ed25519, b.length_x25519⟩

/-- The second pair has the keys of the first, with the X25519 keys exchanged. -/
structure Crossed (a b a' b' : PartyKeys) : Prop where
  ed25519_ne : a.ed25519 ≠ b.ed25519
  x25519_ne : a.x25519 ≠ b.x25519
  crossed : s(a', b') = s(a.withX25519 b, b.withX25519 a)

theorem Crossed.bindingInput_eq (h : Crossed a b a' b') :
    bindingInput a b = bindingInput a' b' := by
  rw [bindingInput_eq_iff]
  obtain ⟨rfl, rfl⟩ | ⟨rfl, rfl⟩ := Sym2.eq_iff.mp h.crossed
  · exact ⟨rfl, Sym2.eq_swap⟩
  · exact ⟨Sym2.eq_swap, rfl⟩

theorem Crossed.ne (h : Crossed a b a' b') : s(a, b) ≠ s(a', b') := by
  rw [h.crossed]
  intro heq
  obtain ⟨ha, -⟩ | ⟨ha, -⟩ := Sym2.eq_iff.mp heq
  · have hx := congrArg PartyKeys.x25519 ha
    exact h.x25519_ne hx
  · have hed := congrArg PartyKeys.ed25519 ha
    exact h.ed25519_ne hed

/-- Exchanging the X25519 keys gives another pair of identities or the same one. -/
theorem eq_or_crossed_of_exchanged (h : s(a', b') = s(a.withX25519 b, b.withX25519 a)) :
    s(a, b) = s(a', b') ∨ Crossed a b a' b' := by
  by_cases hed : a.ed25519 = b.ed25519
  · have hab : a.withX25519 b = b := PartyKeys.ext hed rfl
    have hba : b.withX25519 a = a := PartyKeys.ext hed.symm rfl
    rw [hab, hba] at h
    exact .inl (Sym2.eq_swap.trans h.symm)
  by_cases hx : a.x25519 = b.x25519
  · have hab : a.withX25519 b = a := PartyKeys.ext rfl hx.symm
    have hba : b.withX25519 a = b := PartyKeys.ext rfl hx
    rw [hab, hba] at h
    exact .inl h.symm
  exact .inr ⟨hed, hx, h⟩

/-- Pairs with the same Ed25519 keys and the same X25519 keys are the same pair or crossed. -/
theorem eq_or_crossed (hed : s(a.ed25519, b.ed25519) = s(a'.ed25519, b'.ed25519))
    (hx : s(a.x25519, b.x25519) = s(a'.x25519, b'.x25519)) :
    s(a, b) = s(a', b') ∨ Crossed a b a' b' := by
  obtain ⟨hea, heb⟩ | ⟨hea, heb⟩ := Sym2.eq_iff.mp hed <;>
    obtain ⟨hxa, hxb⟩ | ⟨hxa, hxb⟩ := Sym2.eq_iff.mp hx
  · exact .inl (Sym2.eq_iff.mpr (.inl ⟨PartyKeys.ext hea hxa, PartyKeys.ext heb hxb⟩))
  · refine eq_or_crossed_of_exchanged (Sym2.eq_iff.mpr (.inl ⟨?_, ?_⟩))
    · exact PartyKeys.ext hea.symm hxb.symm
    · exact PartyKeys.ext heb.symm hxa.symm
  · refine eq_or_crossed_of_exchanged (Sym2.eq_iff.mpr (.inr ⟨?_, ?_⟩))
    · exact PartyKeys.ext heb.symm hxa.symm
    · exact PartyKeys.ext hea.symm hxb.symm
  · exact .inl (Sym2.eq_iff.mpr (.inr ⟨PartyKeys.ext hea hxa, PartyKeys.ext heb hxb⟩))

/-- The hash does not depend on the order of the parties.  It determines the unordered pair of
identities unless the other pair has the same keys, paired crosswise.  SHA-256 has to be
injective on the inputs of the two pairs only. -/
theorem bindingHash_binds_iff (a b a' b' : PartyKeys)
    (hinj : Set.InjOn c.sha256 {bindingInput a b, bindingInput a' b'}) :
    bindingHash c a b = bindingHash c b a ∧
      ((bindingHash c a b = bindingHash c a' b' → s(a, b) = s(a', b')) ↔ ¬Crossed a b a' b') := by
  constructor
  · rw [bindingHash_eq, bindingHash_eq]
    rw [bindingInput_eq_iff.mpr ⟨Sym2.eq_swap, Sym2.eq_swap⟩]
  · rw [bindingHash_eq, bindingHash_eq, Except.ok.injEq]
    constructor
    · intro h hcrossed
      exact hcrossed.ne (h (congrArg c.sha256 hcrossed.bindingInput_eq))
    · intro hcrossed hhash
      have hinput := hinj (.inl rfl) (.inr rfl) hhash
      obtain ⟨hed, hx⟩ := bindingInput_eq_iff.mp hinput
      exact (eq_or_crossed hed hx).resolve_right hcrossed

/-- The identity with constant keys. -/
def ofConstants (ed x : UInt8) : PartyKeys :=
  ⟨List.replicate 32 ed, List.replicate 32 x, rfl, rfl⟩

theorem bindingHash_confuses_crossed :
    bindingHash .transparent (ofConstants 1 1) (ofConstants 2 2) =
        bindingHash .transparent (ofConstants 1 2) (ofConstants 2 1) ∧
      s(ofConstants 1 1, ofConstants 2 2) ≠ s(ofConstants 1 2, ofConstants 2 1) := by
  have hcrossed : Crossed (ofConstants 1 1) (ofConstants 2 2) (ofConstants 1 2)
      (ofConstants 2 1) := ⟨by decide, by decide, rfl⟩
  refine ⟨?_, hcrossed.ne⟩
  rw [bindingHash_eq, bindingHash_eq, hcrossed.bindingInput_eq]

theorem bindingHash_binds_iff_sample :
    bindingHash .transparent (ofConstants 1 1) (ofConstants 2 2) ≠
      bindingHash .transparent (ofConstants 1 1) (ofConstants 2 3) := by
  have hne : Crypto.transparent.sha256 (bindingInput (ofConstants 1 1) (ofConstants 2 2)) ≠
      Crypto.transparent.sha256 (bindingInput (ofConstants 1 1) (ofConstants 2 3)) := by
    decide +kernel
  have hinj : Set.InjOn Crypto.transparent.sha256
      {bindingInput (ofConstants 1 1) (ofConstants 2 2),
        bindingInput (ofConstants 1 1) (ofConstants 2 3)} :=
    Set.injOn_pair.mpr fun h ↦ absurd h hne
  have hcrossed : ¬Crossed (ofConstants 1 1) (ofConstants 2 2) (ofConstants 1 1)
      (ofConstants 2 3) := fun h ↦ absurd (bindingInput_eq_iff.mp h.bindingInput_eq).2 (by
    rw [Sym2.eq_iff]
    decide)
  intro heq
  have hsame := (bindingHash_binds_iff (ofConstants 1 1) (ofConstants 2 2) (ofConstants 1 1)
    (ofConstants 2 3) hinj).2.mpr hcrossed heq
  obtain ⟨-, h⟩ | ⟨h, -⟩ := Sym2.eq_iff.mp hsame
  · exact absurd (congrArg PartyKeys.x25519 h) (by decide)
  · exact absurd (congrArg PartyKeys.ed25519 h) (by decide)

end PartyKeys

end AuraProtocol.Session
