import SpaceportBazaar.Mappers
import SpaceportBazaar.Wire

namespace SpaceportBazaar

/-- The body of a trading command, lists in wire order. -/
inductive CommandBody
  | advertise (selling seeking : List Resource) (expiresTick : Nat)
  | offer (recipientId : String) (give receive : Bundle) (expiresTick : Nat)
  | accept (offerId : String)
  | withdraw (objectId : String)
  deriving DecidableEq

inductive ClientMessage
  | command (protocolVersion runId requestId : String) (body : CommandBody)
  | sync (protocolVersion runId : String)
  | ready (protocolVersion runId : String) (ready : Bool) (snapshotSequence : Nat)
  deriving DecidableEq

/-- What the protobuf parser makes of one binary frame. -/
inductive Payload
  | undecodable (reason : String)
  | noArm
  | incomplete (requestId : Option String) (missing : List String)
  | message (message : ClientMessage)
  deriving DecidableEq

structure BadMessage where
  reason : String
  requestId : Option String
  deriving DecidableEq, Repr

inductive Request
  | ready (ready : Bool) (snapshotSequence : Nat)
  | sync
  | command (requestId : String) (action : Action) (fingerprint : String)
  deriving DecidableEq

structure ClientCommand where
  protocolVersion : String
  runId : String
  request : Request
  deriving DecidableEq

def ClientCommand.requestId (message : ClientCommand) : Option String :=
  match message.request with
  | .command requestId _ _ => some requestId
  | _ => none

namespace CommandBody

def action : CommandBody → Action
  | advertise selling seeking expiresTick =>
    .advertise selling.toFinset seeking.toFinset expiresTick
  | offer recipientId give receive expiresTick => .offer recipientId give receive expiresTick
  | accept offerId => .accept offerId
  | withdraw objectId => .withdraw objectId

def utf8 (s : String) : List UInt8 := s.toByteArray.data.toList

theorem utf8_inj {s t : String} (h : utf8 s = utf8 t) : s = t :=
  String.toByteArray_inj.mp (ByteArray.ext (Array.toList_inj.mp h))

theorem value_inj {r r' : Resource} (h : r.value = r'.value) : r = r' := by
  cases r <;> cases r' <;> first | rfl | simp [Resource.value] at h

def text : Code String := Code.delimited.comap utf8 utf8_inj

def bundleFields : Code Bundle :=
  (Code.pair (Code.field 0x08 Code.varint)
    (Code.pair (Code.field 0x10 Code.varint) (Code.field 0x18 Code.varint))).comap
    (fun b => (b.water, b.food, b.components)) (fun {a b} h => by
      simp only [Prod.mk.injEq] at h
      exact Bundle.ext h.1 h.2.1 h.2.2)

def bundle : Code Bundle := Code.delimited.comap bundleFields.enc bundleFields.injective

/-- One item of a resource list: enums are varints and lists are not packed. -/
def resource : Code Resource := Code.field 0x08 (Code.varint.comap Resource.value value_inj)

def resources : Code (List Resource) :=
  Code.delimited.comap (fun rs => rs.flatMap resource.enc)
    (Code.flatMap_injective resource (fun _ h => by simp [resource, Code.field] at h))

def advertiseFields : Code (List Resource × List Resource × Nat) :=
  Code.pair (Code.field 0x0A resources)
    (Code.pair (Code.field 0x12 resources) (Code.field 0x18 Code.varint))

def offerFields : Code (String × Bundle × Bundle × Nat) :=
  Code.pair (Code.field 0x0A text) (Code.pair (Code.field 0x12 bundle)
    (Code.pair (Code.field 0x1A bundle) (Code.field 0x20 Code.varint)))

/-- Shared by `AcceptBody` and `WithdrawBody`: both hold one string under field 1. -/
def idField : Code String := Code.field 0x0A text

/-- `body.body.SerializeToString(deterministic=True)`: the fields of the body in
field order, and nothing that says which body it is. -/
def serializeToString : CommandBody → List UInt8
  | advertise selling seeking expiresTick => advertiseFields.enc (selling, seeking, expiresTick)
  | offer recipientId give receive expiresTick =>
    offerFields.enc (recipientId, give, receive, expiresTick)
  | accept offerId => idField.enc offerId
  | withdraw objectId => idField.enc objectId

/-- An accept and a withdraw of one and the same id. -/
def Collides : CommandBody → CommandBody → Prop
  | accept i, withdraw j => i = j
  | withdraw i, accept j => i = j
  | _, _ => False

instance : DecidableRel Collides := fun a b =>
  match a, b with
  | accept i, withdraw j => inferInstanceAs (Decidable (i = j))
  | withdraw i, accept j => inferInstanceAs (Decidable (i = j))
  | advertise .., _ => inferInstanceAs (Decidable False)
  | offer .., _ => inferInstanceAs (Decidable False)
  | accept _, advertise .. => inferInstanceAs (Decidable False)
  | accept _, offer .. => inferInstanceAs (Decidable False)
  | accept _, accept _ => inferInstanceAs (Decidable False)
  | withdraw _, advertise .. => inferInstanceAs (Decidable False)
  | withdraw _, offer .. => inferInstanceAs (Decidable False)
  | withdraw _, withdraw _ => inferInstanceAs (Decidable False)

theorem Collides.ne {a b : CommandBody} (h : Collides a b) : a ≠ b := by
  rintro rfl
  cases a <;> exact h

/-- The three shapes of a body part ways at the first tag that differs. -/
theorem advertise_ne_offer {selling seeking : List Resource} {give receive : Bundle} {t t' : Nat}
    {i : String} :
    advertiseFields.enc (selling, seeking, t) ≠ offerFields.enc (i, give, receive, t') := by
  intro h
  simp only [advertiseFields, offerFields, Code.pair, Code.field, List.cons_append] at h
  have h := (List.cons.inj h).2
  obtain ⟨_, h⟩ := Code.delimited.cancel h
  have h := (List.cons.inj h).2
  obtain ⟨_, h⟩ := Code.delimited.cancel h
  exact absurd (List.cons.inj h).1 (by decide)

theorem advertise_ne_id {selling seeking : List Resource} {t : Nat} {i : String} :
    advertiseFields.enc (selling, seeking, t) ≠ idField.enc i := by
  intro h
  have hnil : advertiseFields.enc (selling, seeking, t) = idField.enc i ++ [] := by simpa using h
  simp only [advertiseFields, idField, Code.pair, Code.field, List.cons_append] at hnil
  obtain ⟨_, hrest⟩ := Code.delimited.cancel (List.cons.inj hnil).2
  simp at hrest

theorem offer_ne_id {give receive : Bundle} {t : Nat} {i j : String} :
    offerFields.enc (i, give, receive, t) ≠ idField.enc j := by
  intro h
  have hnil : offerFields.enc (i, give, receive, t) = idField.enc j ++ [] := by simpa using h
  simp only [offerFields, idField, Code.pair, Code.field, List.cons_append] at hnil
  obtain ⟨_, hrest⟩ := Code.delimited.cancel (List.cons.inj hnil).2
  simp at hrest

/-- Equal bytes mean equal bodies, but for an accept and a withdraw of one id. -/
theorem serializeToString_eq_iff {a b : CommandBody} :
    a.serializeToString = b.serializeToString ↔ a = b ∨ Collides a b := by
  cases a with
  | advertise selling seeking t =>
    cases b with
    | advertise selling' seeking' t' =>
      constructor
      · intro h
        simp only [serializeToString] at h
        have := advertiseFields.injective h
        simp only [Prod.mk.injEq] at this
        simp [this]
      · rintro (h | h)
        · rw [h]
        · exact h.elim
    | offer => simpa [serializeToString, Collides] using advertise_ne_offer
    | accept => simpa [serializeToString, Collides] using advertise_ne_id
    | withdraw => simpa [serializeToString, Collides] using advertise_ne_id
  | offer i give receive t =>
    cases b with
    | advertise => simpa [serializeToString, Collides] using advertise_ne_offer.symm
    | offer i' give' receive' t' =>
      constructor
      · intro h
        simp only [serializeToString] at h
        have := offerFields.injective h
        simp only [Prod.mk.injEq] at this
        simp [this]
      · rintro (h | h)
        · rw [h]
        · exact h.elim
    | accept => simpa [serializeToString, Collides] using offer_ne_id
    | withdraw => simpa [serializeToString, Collides] using offer_ne_id
  | accept i =>
    cases b with
    | advertise => simpa [serializeToString, Collides] using advertise_ne_id.symm
    | offer => simpa [serializeToString, Collides] using offer_ne_id.symm
    | accept j =>
      simp only [serializeToString, accept.injEq, Collides, or_false]
      exact ⟨idField.injective, fun h => h ▸ rfl⟩
    | withdraw j =>
      simp only [serializeToString, Collides, reduceCtorEq, false_or]
      exact ⟨idField.injective, fun h => h ▸ rfl⟩
  | withdraw i =>
    cases b with
    | advertise => simpa [serializeToString, Collides] using advertise_ne_id.symm
    | offer => simpa [serializeToString, Collides] using offer_ne_id.symm
    | accept j =>
      simp only [serializeToString, Collides, reduceCtorEq, false_or]
      exact ⟨idField.injective, fun h => h ▸ rfl⟩
    | withdraw j =>
      simp only [serializeToString, withdraw.injEq, Collides, or_false]
      exact ⟨idField.injective, fun h => h ▸ rfl⟩

/-- The number of the command's arm in `ClientMessage`, as its tag byte. -/
def tag : CommandBody → UInt8
  | advertise .. => 0x0A
  | offer .. => 0x12
  | accept _ => 0x1A
  | withdraw _ => 0x22

end CommandBody

namespace ClientMessage

/-- One arm of the message: the type field, whose one value is 1, and the rest. -/
def arm (tag : UInt8) (fields : List UInt8) : List UInt8 :=
  (Code.field tag Code.delimited).enc ((Code.field 0x08 Code.varint).enc 1 ++ fields)

def header : Code (String × String) :=
  Code.pair (Code.field 0x12 CommandBody.text) (Code.field 0x1A CommandBody.text)

def serializeToString : ClientMessage → List UInt8
  | .command protocolVersion runId requestId body =>
    arm body.tag
      (header.enc (protocolVersion, runId) ++ (Code.field 0x22 CommandBody.text).enc requestId ++
      (Code.field 0x2A Code.delimited).enc body.serializeToString)
  | .sync protocolVersion runId => arm 0x2A (header.enc (protocolVersion, runId))
  | .ready protocolVersion runId flag snapshotSequence =>
    arm 0x32 (header.enc (protocolVersion, runId) ++ (Code.field 0x20 Code.varint).enc flag.toNat ++
      (Code.field 0x28 Code.varint).enc snapshotSequence)

end ClientMessage

section Decode

variable (sha256 : List UInt8 → String)

/-- An exact retry must be recognisable, so identical bodies share a fingerprint. -/
def fingerprintOf (body : CommandBody) : String := sha256 body.serializeToString

def decodeClientMessage : Payload → Except BadMessage ClientCommand
  | .undecodable reason => .error ⟨"not a ClientMessage: " ++ reason, none⟩
  | .noArm => .error ⟨"ClientMessage selected no arm", none⟩
  | .incomplete requestId missing =>
    .error ⟨"missing required fields: " ++ ", ".intercalate missing, requestId⟩
  | .message (.ready protocolVersion runId ready snapshotSequence) =>
    .ok ⟨protocolVersion, runId, .ready ready snapshotSequence⟩
  | .message (.sync protocolVersion runId) => .ok ⟨protocolVersion, runId, .sync⟩
  | .message (.command protocolVersion runId requestId body) =>
    .ok ⟨protocolVersion, runId, .command requestId body.action (fingerprintOf sha256 body)⟩

/-- A trading command can only come from a well-formed command message. -/
theorem decodeClientMessage_command {sha256 : List UInt8 → String} {payload : Payload}
    {message : ClientCommand} {requestId fingerprint : String} {action : Action}
    (h : decodeClientMessage sha256 payload = .ok message)
    (hr : message.request = .command requestId action fingerprint) :
    ∃ body, payload = .message (.command message.protocolVersion message.runId requestId body) ∧
      action = body.action ∧ fingerprint = fingerprintOf sha256 body := by
  unfold decodeClientMessage at h
  split at h
  next => simp at h
  next => simp at h
  next => simp at h
  next => cases Except.ok.inj h; simp at hr
  next => cases Except.ok.inj h; simp at hr
  next protocolVersion runId rid body =>
    cases Except.ok.inj h
    obtain ⟨rfl, rfl, rfl⟩ := Request.command.inj hr
    exact ⟨body, rfl, rfl, rfl⟩

theorem fingerprintOf_eq_iff {sha256 : List UInt8 → String}
    (injective : ∀ {a b}, sha256 a = sha256 b → a = b) {a b : CommandBody} :
    fingerprintOf sha256 a = fingerprintOf sha256 b ↔ a = b ∨ CommandBody.Collides a b := by
  rw [← CommandBody.serializeToString_eq_iff]
  exact ⟨injective, fun h => congrArg sha256 h⟩

end Decode

/-- A digest that keeps every byte. -/
def plainDigest (bs : List UInt8) : String := String.ofList (bs.map (fun b => Char.ofNat b.toNat))

theorem plainDigest_injective {a b : List UInt8} (h : plainDigest a = plainDigest b) : a = b := by
  have hchar : ∀ n < 256, (Char.ofNat n).toNat = n := by decide +kernel
  have hl : a.map (fun b => Char.ofNat b.toNat) = b.map (fun b => Char.ofNat b.toNat) := by
    simpa [plainDigest] using congrArg String.toList h
  refine List.map_injective_iff.mpr ?_ hl
  intro x y hxy
  have hnat : x.toNat = y.toNat := by
    rw [← hchar x.toNat x.toNat_lt, ← hchar y.toNat y.toNat_lt]
    exact congrArg Char.toNat hxy
  exact UInt8.toNat_inj.mp hnat

end SpaceportBazaar
