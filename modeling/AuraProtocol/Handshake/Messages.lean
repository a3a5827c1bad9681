import AuraProtocol.Lib.Protobuf
import AuraProtocol.Session.State

/-!
# The messages of the handshake

`handshake.proto`, with the fields each message puts on the wire.  The encoder of
a message is fixed by the wire format; its decoder comes from `prost` and is a
parameter (`Wire`), of which it is known only that it inverts the encoder.  So
sizes of encodings are facts here, while what is decoded from arbitrary bytes is
left open.
-/

namespace AuraProtocol

open Protobuf (uintField bytesField optionalField repeatedField)

namespace Proto

structure OneTimePreKey where
  oneTimePreKeyId : UInt32
  publicKey : Bytes
  deriving DecidableEq, Repr

structure PreKeyBundle where
  version : UInt32
  identityEd25519Public : Bytes
  identityX25519Public : Bytes
  signedPreKeyId : UInt32
  signedPreKeyPublic : Bytes
  signedPreKeySignature : Bytes
  oneTimePreKeys : List OneTimePreKey
  kyberPublic : Bytes
  identityX25519Signature : Bytes
  deriving DecidableEq, Repr

structure HandshakeInit where
  version : UInt32
  initiatorIdentityEd25519Public : Bytes
  initiatorIdentityX25519Public : Bytes
  initiatorEphemeralX25519Public : Bytes
  oneTimePreKeyId : Option UInt32
  kyberCiphertext : Bytes
  keyConfirmationMac : Bytes
  initiatorKyberPublic : Bytes
  maxMessagesPerChain : UInt32
  initiatorIdentityBindingSignature : Bytes
  deriving DecidableEq, Repr

structure HandshakeAck where
  version : UInt32
  keyConfirmationMac : Bytes
  deriving DecidableEq, Repr

/-- The fields of a `OneTimePreKey`. -/
def OneTimePreKey.fields (o : OneTimePreKey) : List Protobuf.Field :=
  uintField 1 o.oneTimePreKeyId.toNat ++ bytesField 2 o.publicKey

/-- The fields of a `PreKeyBundle`. -/
def PreKeyBundle.fields (b : PreKeyBundle) : List Protobuf.Field :=
  uintField 1 b.version.toNat ++ bytesField 2 b.identityEd25519Public ++
    bytesField 3 b.identityX25519Public ++ uintField 4 b.signedPreKeyId.toNat ++
    bytesField 5 b.signedPreKeyPublic ++ bytesField 6 b.signedPreKeySignature ++
    repeatedField 7 (b.oneTimePreKeys.map fun o => Protobuf.encode o.fields) ++
    bytesField 8 b.kyberPublic ++ bytesField 9 b.identityX25519Signature

/-- The fields of a `HandshakeInit`. -/
def HandshakeInit.fields (i : HandshakeInit) : List Protobuf.Field :=
  uintField 1 i.version.toNat ++ bytesField 2 i.initiatorIdentityEd25519Public ++
    bytesField 3 i.initiatorIdentityX25519Public ++
    bytesField 4 i.initiatorEphemeralX25519Public ++
    optionalField 5 (i.oneTimePreKeyId.map UInt32.toNat) ++ bytesField 6 i.kyberCiphertext ++
    bytesField 7 i.keyConfirmationMac ++ bytesField 8 i.initiatorKyberPublic ++
    uintField 9 i.maxMessagesPerChain.toNat ++
    bytesField 10 i.initiatorIdentityBindingSignature

/-- The fields of a `HandshakeAck`. -/
def HandshakeAck.fields (a : HandshakeAck) : List Protobuf.Field :=
  uintField 1 a.version.toNat ++ bytesField 2 a.keyConfirmationMac

end Proto

namespace Handshake

/-- The codecs of the handshake's messages: encoders that follow the wire format, and
decoders that invert them. -/
structure Wire where
  preKeyBundle : Codec Proto.PreKeyBundle
  handshakeInit : Codec Proto.HandshakeInit
  handshakeAck : Codec Proto.HandshakeAck
  encode_preKeyBundle : ∀ b, preKeyBundle.encode b = Protobuf.encode b.fields
  encode_handshakeInit : ∀ i, handshakeInit.encode i = Protobuf.encode i.fields
  encode_handshakeAck : ∀ a, handshakeAck.encode a = Protobuf.encode a.fields

end Handshake

/-- An encoding determines the message. -/
theorem Codec.encode_injective {α : Type} (codec : Codec α) : Function.Injective codec.encode := by
  intro a b h
  have := codec.decode_encode a
  rw [h, codec.decode_encode] at this
  exact (Except.ok.inj this).symm

/-! ## Sizes -/

namespace Proto

open Protobuf List

/-- A `u32` takes at most five bytes. -/
theorem varintLen_toNat_le (n : UInt32) : varintLen n.toNat ≤ 5 :=
  varintLen_le (by decide) (n.toNat_lt.trans_le (by decide))

/-- A small number, such as the tag of a field with a small number, is one byte. -/
theorem varintLen_eq_one {n : ℕ} (h : n < 128) : varintLen n = 1 :=
  le_antisymm (varintLen_le le_rfl h) (varintLen_pos _)

theorem length_uintField_le {num : ℕ} (hnum : num < 15) (n : UInt32) :
    (encode (uintField num n.toNat)).length ≤ 6 := by
  have hn := varintLen_toNat_le n
  have htag := varintLen_eq_one (show num * 8 < 128 by omega)
  rw [length_encode_uintField]
  split_ifs <;> omega

theorem length_optionalField_le {num : ℕ} (hnum : num < 15) (o : Option UInt32) :
    (encode (optionalField num (o.map UInt32.toNat))).length ≤ 6 := by
  have htag := varintLen_eq_one (show num * 8 < 128 by omega)
  rw [length_encode_optionalField]
  cases o with
  | none => exact Nat.zero_le _
  | some n =>
    have hn := varintLen_toNat_le n
    simp only [Option.map_some, Option.elim]
    omega

/-- A byte string of moderate size costs at most four bytes more. -/
theorem length_bytesField_le {num : ℕ} (hnum : num < 15) {b : Bytes} (hb : b.length < 128 ^ 3) :
    (encode (bytesField num b)).length ≤ b.length + 4 := by
  have hlen := varintLen_le (by decide : 1 ≤ 3) hb
  have htag := varintLen_eq_one (show num * 8 + 2 < 128 by omega)
  rw [length_encode_bytesField]
  split_ifs <;> omega

theorem length_encode_oneTimePreKey_le {o : OneTimePreKey} (h : o.publicKey.length = 32) :
    (encode o.fields).length ≤ 42 := by
  have hid := length_uintField_le (by decide : 1 < 15) o.oneTimePreKeyId
  have hkey := length_bytesField_le (by decide : 2 < 15) (b := o.publicKey) (by rw [h]; decide)
  rw [OneTimePreKey.fields, encode_append, length_append]
  omega

/-- The sizes of the fields of an init message. -/
structure HandshakeInit.Sized (i : HandshakeInit) : Prop where
  initiatorIdentityEd25519Public : i.initiatorIdentityEd25519Public.length = 32
  initiatorIdentityX25519Public : i.initiatorIdentityX25519Public.length = 32
  initiatorEphemeralX25519Public : i.initiatorEphemeralX25519Public.length = 32
  kyberCiphertext : i.kyberCiphertext.length = 1088
  keyConfirmationMac : i.keyConfirmationMac.length ≤ 32
  initiatorKyberPublic : i.initiatorKyberPublic.length = 1184
  initiatorIdentityBindingSignature : i.initiatorIdentityBindingSignature.length = 64

theorem length_encode_handshakeInit_le {i : HandshakeInit} (h : i.Sized) :
    (encode i.fields).length ≤ 2510 := by
  obtain ⟨hed, hx, heph, hct, hmac, hkyber, hsig⟩ := h
  have h1 := length_uintField_le (by decide : 1 < 15) i.version
  have h2 := length_bytesField_le (by decide : 2 < 15) (hed.trans_lt (by decide))
  have h3 := length_bytesField_le (by decide : 3 < 15) (hx.trans_lt (by decide))
  have h4 := length_bytesField_le (by decide : 4 < 15) (heph.trans_lt (by decide))
  have h5 := length_optionalField_le (by decide : 5 < 15) i.oneTimePreKeyId
  have h6 := length_bytesField_le (by decide : 6 < 15) (hct.trans_lt (by decide))
  have h7 := length_bytesField_le (by decide : 7 < 15) (hmac.trans_lt (by decide))
  have h8 := length_bytesField_le (by decide : 8 < 15) (hkyber.trans_lt (by decide))
  have h9 := length_uintField_le (by decide : 9 < 15) i.maxMessagesPerChain
  have h10 := length_bytesField_le (by decide : 10 < 15) (hsig.trans_lt (by decide))
  simp only [HandshakeInit.fields, encode_append, length_append]
  omega

theorem length_encode_handshakeAck_le {a : HandshakeAck} (h : a.keyConfirmationMac.length = 32) :
    (encode a.fields).length ≤ 42 := by
  have h1 := length_uintField_le (by decide : 1 < 15) a.version
  have h2 := length_bytesField_le (by decide : 2 < 15) (h.trans_lt (by decide))
  rw [HandshakeAck.fields, encode_append, length_append]
  omega

/-- The sizes of the fields of a bundle. -/
structure PreKeyBundle.Sized (b : PreKeyBundle) : Prop where
  identityEd25519Public : b.identityEd25519Public.length = 32
  identityX25519Public : b.identityX25519Public.length = 32
  signedPreKeyPublic : b.signedPreKeyPublic.length = 32
  signedPreKeySignature : b.signedPreKeySignature.length = 64
  oneTimePreKeys : ∀ o ∈ b.oneTimePreKeys, o.publicKey.length = 32
  kyberPublic : b.kyberPublic.length = 1184
  identityX25519Signature : b.identityX25519Signature.length = 64

theorem length_oneTimePreKeys_le {opks : List OneTimePreKey}
    (h : ∀ o ∈ opks, o.publicKey.length = 32) :
    (encode (repeatedField 7 (opks.map fun o => encode o.fields))).length ≤ 46 * opks.length := by
  rw [length_encode_repeatedField, map_map]
  induction opks with
  | nil => exact le_rfl
  | cons o opks ih =>
    have ho := length_encode_oneTimePreKey_le (h o mem_cons_self)
    have hlen := varintLen_le (k := 3) (by decide)
      (show (encode o.fields).length < 128 ^ 3 from ho.trans_lt (by decide))
    have htag := varintLen_eq_one (by decide : 7 * 8 + 2 < 128)
    have := ih fun o' ho' => h o' (mem_cons_of_mem _ ho')
    simp only [map_cons, sum_cons, Function.comp_apply, length_cons] at this ⊢
    omega

theorem length_encode_preKeyBundle_le {b : PreKeyBundle} (h : b.Sized) :
    (encode b.fields).length ≤ 46 * b.oneTimePreKeys.length + 1500 := by
  obtain ⟨hed, hx, hspk, hspkSig, hopks, hkyber, hxSig⟩ := h
  have h1 := length_uintField_le (by decide : 1 < 15) b.version
  have h2 := length_bytesField_le (by decide : 2 < 15) (hed.trans_lt (by decide))
  have h3 := length_bytesField_le (by decide : 3 < 15) (hx.trans_lt (by decide))
  have h4 := length_uintField_le (by decide : 4 < 15) b.signedPreKeyId
  have h5 := length_bytesField_le (by decide : 5 < 15) (hspk.trans_lt (by decide))
  have h6 := length_bytesField_le (by decide : 6 < 15) (hspkSig.trans_lt (by decide))
  have h7 := length_oneTimePreKeys_le hopks
  have h8 := length_bytesField_le (by decide : 8 < 15) (hkyber.trans_lt (by decide))
  have h9 := length_bytesField_le (by decide : 9 < 15) (hxSig.trans_lt (by decide))
  simp only [PreKeyBundle.fields, encode_append, length_append]
  omega

/-! ## Decoders

Decoders that invert the encoders exist: take the last value of every field. -/

/-- A `OneTimePreKey` from its fields. -/
def OneTimePreKey.ofFields (fs : List Field) : OneTimePreKey where
  oneTimePreKeyId := UInt32.ofNat (uintOf (values 1 fs))
  publicKey := bytesOf (values 2 fs)

/-- A `PreKeyBundle` from its fields. -/
def PreKeyBundle.ofFields (fs : List Field) : Option PreKeyBundle := do
  let opks ← (repeatedOf (values 7 fs)).mapM fun b => (parse b).map OneTimePreKey.ofFields
  some {
    version := UInt32.ofNat (uintOf (values 1 fs))
    identityEd25519Public := bytesOf (values 2 fs)
    identityX25519Public := bytesOf (values 3 fs)
    signedPreKeyId := UInt32.ofNat (uintOf (values 4 fs))
    signedPreKeyPublic := bytesOf (values 5 fs)
    signedPreKeySignature := bytesOf (values 6 fs)
    oneTimePreKeys := opks
    kyberPublic := bytesOf (values 8 fs)
    identityX25519Signature := bytesOf (values 9 fs) }

/-- A `HandshakeInit` from its fields. -/
def HandshakeInit.ofFields (fs : List Field) : HandshakeInit where
  version := UInt32.ofNat (uintOf (values 1 fs))
  initiatorIdentityEd25519Public := bytesOf (values 2 fs)
  initiatorIdentityX25519Public := bytesOf (values 3 fs)
  initiatorEphemeralX25519Public := bytesOf (values 4 fs)
  oneTimePreKeyId := (optionalOf (values 5 fs)).map UInt32.ofNat
  kyberCiphertext := bytesOf (values 6 fs)
  keyConfirmationMac := bytesOf (values 7 fs)
  initiatorKyberPublic := bytesOf (values 8 fs)
  maxMessagesPerChain := UInt32.ofNat (uintOf (values 9 fs))
  initiatorIdentityBindingSignature := bytesOf (values 10 fs)

/-- A `HandshakeAck` from its fields. -/
def HandshakeAck.ofFields (fs : List Field) : HandshakeAck where
  version := UInt32.ofNat (uintOf (values 1 fs))
  keyConfirmationMac := bytesOf (values 2 fs)

theorem OneTimePreKey.ofFields_fields (o : OneTimePreKey) : ofFields o.fields = o := by
  simp (disch := decide) only [ofFields, fields, values_append, values_uintField_of_ne,
    values_bytesField_of_ne, append_nil, nil_append, uintOf_values_uintField,
    bytesOf_values_bytesField, UInt32.ofNat_toNat]

theorem mapM_oneTimePreKeys (opks : List OneTimePreKey) :
    ((opks.map fun o => encode o.fields).mapM fun b => (parse b).map OneTimePreKey.ofFields) =
      some opks := by
  induction opks with
  | nil => rfl
  | cons o opks ih =>
    rw [map_cons, mapM_cons, parse_encode, Option.map_some,
      OneTimePreKey.ofFields_fields, ih]
    rfl

theorem PreKeyBundle.ofFields_fields (b : PreKeyBundle) : ofFields b.fields = some b := by
  simp (disch := decide) only [ofFields, fields, values_append, values_uintField_of_ne,
    values_bytesField_of_ne, values_repeatedField_of_ne, append_nil, nil_append,
    uintOf_values_uintField, bytesOf_values_bytesField, repeatedOf_values_repeatedField,
    mapM_oneTimePreKeys, UInt32.ofNat_toNat]
  rfl

theorem HandshakeInit.ofFields_fields (i : HandshakeInit) : ofFields i.fields = i := by
  have hid : (UInt32.ofNat ∘ UInt32.toNat) = id := funext fun n => UInt32.ofNat_toNat
  simp (disch := decide) only [ofFields, fields, values_append, values_uintField_of_ne,
    values_bytesField_of_ne, values_optionalField_of_ne, append_nil, nil_append,
    uintOf_values_uintField, bytesOf_values_bytesField, optionalOf_values_optionalField,
    Option.map_map, hid, Option.map_id, id_eq, UInt32.ofNat_toNat]

theorem HandshakeAck.ofFields_fields (a : HandshakeAck) : ofFields a.fields = a := by
  simp (disch := decide) only [ofFields, fields, values_append, values_uintField_of_ne,
    values_bytesField_of_ne, append_nil, nil_append, uintOf_values_uintField,
    bytesOf_values_bytesField, UInt32.ofNat_toNat]

/-- The codec of a message type given by its fields. -/
def codecOf {α : Type} (fields : α → List Field) (ofFields : List Field → Option α)
    (h : ∀ a, ofFields (fields a) = some a) : Codec α where
  encode a := encode (fields a)
  decode bs :=
    match (parse bs).bind ofFields with
    | some a => .ok a
    | none => .error "invalid wire format"
  decode_encode a := by simp only [parse_encode, Option.bind_some, h]

end Proto

/-- The wire format with decoders that take the last value of every field. -/
def Handshake.Wire.protobuf : Handshake.Wire where
  preKeyBundle := Proto.codecOf _ _ Proto.PreKeyBundle.ofFields_fields
  handshakeInit := Proto.codecOf Proto.HandshakeInit.fields (some ∘ Proto.HandshakeInit.ofFields)
    fun i => congrArg some i.ofFields_fields
  handshakeAck := Proto.codecOf Proto.HandshakeAck.fields (some ∘ Proto.HandshakeAck.ofFields)
    fun a => congrArg some a.ofFields_fields
  encode_preKeyBundle _ := rfl
  encode_handshakeInit _ := rfl
  encode_handshakeAck _ := rfl

end AuraProtocol
