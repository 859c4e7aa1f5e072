import SpaceportBazaar.Connection
import SpaceportBazaar.RoundTrip

namespace SpaceportBazaar

section Build

def buildAdvertise (runId requestId : String) (selling seeking : List Resource)
    (expiresTick : Nat) :
    Except Raised ClientMessage := do
  let _ ← uint64 expiresTick
  return .command protocolVersion runId requestId
    (.advertise (Resource.sorted selling) (Resource.sorted seeking) expiresTick)

def buildOffer (runId requestId recipientId : String) (give receive : Bundle) (expiresTick : Nat) :
    Except Raised ClientMessage := do
  let _ ← uint64 expiresTick
  let _ ← bundleToPb give
  let _ ← bundleToPb receive
  return .command protocolVersion runId requestId (.offer recipientId give receive expiresTick)

def buildAccept (runId requestId offerId : String) : ClientMessage :=
  .command protocolVersion runId requestId (.accept offerId)

def buildWithdraw (runId requestId objectId : String) : ClientMessage :=
  .command protocolVersion runId requestId (.withdraw objectId)

/-- Sync carries no body and no request id. -/
def buildSync (runId : String) : ClientMessage := .sync protocolVersion runId

def buildReady (runId : String) (ready : Bool)
    (snapshotSequence : Nat) : Except Raised ClientMessage := do
  let _ ← uint64 snapshotSequence
  return .ready protocolVersion runId ready snapshotSequence

/-- `Executor.build` -/
def build (action : Action) (runId requestId : String) : Except Raised ClientMessage :=
  match action with
  | .advertise selling seeking expiresTick =>
    buildAdvertise runId requestId (Resource.elements selling)
      (Resource.elements seeking) expiresTick
  | .offer recipientId give receive expiresTick =>
    buildOffer runId requestId recipientId give receive expiresTick
  | .accept offerId => .ok (buildAccept runId requestId offerId)
  | .withdraw objectId => .ok (buildWithdraw runId requestId objectId)
  | .sync => .error (.typeError "SyncAction is not a command action")

end Build

def Action.kind : Action → String
  | .advertise .. => "advertise"
  | .offer .. => "offer"
  | .accept _ => "accept"
  | .withdraw _ => "withdraw"
  | .sync => "sync"

/-- The arm of the message a decoded command came in. -/
def ClientCommand.kind (command : ClientCommand) : String :=
  match command.request with
  | .ready .. => "ready"
  | .sync => "sync"
  | .command _ action _ => action.kind

def Action.integers : Action → List Nat
  | .advertise _ _ expiresTick => [expiresTick]
  | .offer _ give receive expiresTick => expiresTick :: (give.integers ++ receive.integers)
  | _ => []

def CommandBody.integers : CommandBody → List Nat
  | .advertise _ _ expiresTick => [expiresTick]
  | .offer _ give receive expiresTick => expiresTick :: (give.integers ++ receive.integers)
  | _ => []

def ClientMessage.integers : ClientMessage → List Nat
  | .command _ _ _ body => body.integers
  | .sync .. => []
  | .ready _ _ _ snapshotSequence => [snapshotSequence]

theorem toFinset_sorted_elements (rs : Finset Resource) :
    (Resource.sorted (Resource.elements rs)).toFinset = rs := by
  ext r
  simp [Resource.sorted, Resource.elements, (List.perm_insertionSort _ _).mem_iff]

/-- A trading action whose numbers fit is built into a message that carries it. -/
theorem build_ok {action : Action} (runId requestId : String) (trading : action ≠ .sync)
    (h : Fits action.integers) :
    ∃ body : CommandBody, build action runId requestId =
      .ok (.command protocolVersion runId requestId body) ∧
      body.action = action ∧ Fits body.integers := by
  cases action with
  | advertise selling seeking expiresTick =>
    obtain ⟨hdeadline, _⟩ := fits_cons.mp h
    refine ⟨.advertise
      (Resource.sorted (Resource.elements selling)) (Resource.sorted (Resource.elements seeking))
      expiresTick, ?_, ?_, h⟩
    · simp only [build, buildAdvertise, uint64_eq hdeadline, bind, Except.bind, pure, Except.pure]
    · simp only [CommandBody.action, toFinset_sorted_elements]
  | offer recipientId give receive expiresTick =>
    obtain ⟨hdeadline, hbundles⟩ := fits_cons.mp h
    obtain ⟨hgive, hreceive⟩ := fits_append.mp hbundles
    obtain ⟨_, wgive, _⟩ := bundle_round_trip hgive
    obtain ⟨_, wreceive, _⟩ := bundle_round_trip hreceive
    refine ⟨.offer recipientId give receive expiresTick, ?_, rfl, h⟩
    simp only [build, buildOffer, uint64_eq hdeadline, wgive, wreceive, bind, Except.bind,
      pure, Except.pure]
  | accept offerId => exact ⟨_, rfl, rfl, h⟩
  | withdraw objectId => exact ⟨_, rfl, rfl, h⟩
  | sync => exact absurd rfl trading

theorem encodeClientMessage_bytes {message : ClientMessage} {maxBytes : Option Nat}
    {payload : List UInt8} (h : encodeClientMessage (.complete message) maxBytes = .ok payload) :
    payload = message.serializeToString := by
  unfold encodeClientMessage at h
  simp only at h
  split at h
  next => exact (Except.ok.inj h).symm
  next =>
    split at h
    next => simp at h
    next => exact (Except.ok.inj h).symm

/-- The client's encoder and the server's decoder agree on every message: what a
protobuf runtime preserves arrives as it was meant. -/
theorem build_decodes {sha256 : List UInt8 → String} {parse : List UInt8 → Payload}
    (preserves : ∀ message : ClientMessage, Fits message.integers →
      parse message.serializeToString = .message message) (runId requestId : String) :
    (∀ action : Action, action ≠ .sync → Fits action.integers → ∃ message,
      build action runId requestId = .ok message ∧
      ∀ maxBytes payload, encodeClientMessage (.complete message) maxBytes = .ok payload →
        ∃ command fingerprint, decodeClientMessage sha256 (parse payload) = .ok command ∧
          command.kind = action.kind ∧ command.protocolVersion = "2.0" ∧ command.runId = runId ∧
          command.requestId = some requestId ∧
          command.request = .command requestId action fingerprint) ∧
    (∀ maxBytes payload, encodeClientMessage (.complete (buildSync runId)) maxBytes = .ok payload →
      ∃ command, decodeClientMessage sha256 (parse payload) = .ok command ∧ command.kind = "sync" ∧
        command.protocolVersion = "2.0" ∧ command.runId = runId ∧ command.request = .sync) ∧
    (∀ ready snapshotSequence, snapshotSequence < 2 ^ 64 → ∃ message,
      buildReady runId ready snapshotSequence = .ok message ∧
      ∀ maxBytes payload, encodeClientMessage (.complete message) maxBytes = .ok payload →
        ∃ command, decodeClientMessage sha256 (parse payload) = .ok command ∧
          command.kind = "ready" ∧
          command.protocolVersion = "2.0" ∧ command.runId = runId ∧
          command.request = .ready ready snapshotSequence) := by
  refine ⟨?_, ?_, ?_⟩
  · intro action trading h
    obtain ⟨body, hbuild, haction, hfits⟩ := build_ok runId requestId trading h
    refine ⟨_, hbuild, ?_⟩
    intro maxBytes payload hencode
    have hmessage :
      Fits (ClientMessage.command protocolVersion runId requestId body).integers := hfits
    rw [encodeClientMessage_bytes hencode, preserves _ hmessage]
    subst haction
    exact ⟨_, fingerprintOf sha256 body, rfl, rfl, rfl, rfl, rfl, rfl⟩
  · intro maxBytes payload hencode
    have hfits : Fits (buildSync runId).integers := fun n hn => by cases hn
    rw [encodeClientMessage_bytes hencode, preserves _ hfits]
    exact ⟨_, rfl, rfl, rfl, rfl, rfl⟩
  · intro ready snapshotSequence h
    refine ⟨.ready protocolVersion runId ready snapshotSequence, ?_, ?_⟩
    · simp only [buildReady, uint64_eq h, bind, Except.bind, pure, Except.pure]
    · intro maxBytes payload hencode
      have hfits :
          Fits (ClientMessage.ready protocolVersion runId ready snapshotSequence).integers :=
        fits_cons.mpr ⟨h, fun n hn => by cases hn⟩
      rw [encodeClientMessage_bytes hencode, preserves _ hfits]
      exact ⟨_, rfl, rfl, rfl, rfl, rfl⟩

namespace ClientMessage

theorem arm_inj {tag tag' : UInt8} {fields fields' : List UInt8}
    (h : arm tag fields = arm tag' fields') :
    tag = tag' ∧ fields = fields' := by
  obtain ⟨htag, hrest⟩ := List.cons.inj h
  exact ⟨htag, (Code.cancel _ (Code.injective _ hrest)).2⟩

/-- No two messages share their bytes, though an accept and a withdraw share their bodies'. -/
theorem serializeToString_inj {a b : ClientMessage}
    (h : a.serializeToString = b.serializeToString) : a = b := by
  have htags : ∀ body : CommandBody, body.tag ≠ 0x2A ∧ body.tag ≠ 0x32 := by
    intro body
    cases body <;> simp [CommandBody.tag]
  cases a with
  | command version runId requestId body =>
    cases b with
    | command version' runId' requestId' body' =>
      obtain ⟨htag, hfields⟩ := arm_inj h
      simp only [List.append_assoc] at hfields
      obtain ⟨hheader, hfields⟩ := header.cancel hfields
      obtain ⟨hid, hbytes⟩ := Code.cancel _ hfields
      obtain ⟨rfl, rfl⟩ := Prod.mk.inj hheader
      rcases CommandBody.serializeToString_eq_iff.mp (Code.injective _ hbytes) with rfl | hcollides
      · rw [hid]
      · cases body <;> cases body' <;> first | exact hcollides.elim | simp [CommandBody.tag] at htag
    | sync => exact absurd (arm_inj h).1 (htags body).1
    | ready => exact absurd (arm_inj h).1 (htags body).2
  | sync version runId =>
    cases b with
    | command version' runId' requestId' body' => exact absurd (arm_inj h).1.symm (htags body').1
    | sync version' runId' =>
      obtain ⟨rfl, rfl⟩ := Prod.mk.inj (header.injective (arm_inj h).2)
      rfl
    | ready => exact absurd (arm_inj h).1 (by decide)
  | ready version runId flag snapshotSequence =>
    cases b with
    | command version' runId' requestId' body' => exact absurd (arm_inj h).1.symm (htags body').2
    | sync => exact absurd (arm_inj h).1 (by decide)
    | ready version' runId' flag' snapshotSequence' =>
      have hfields := (arm_inj h).2
      simp only [List.append_assoc] at hfields
      obtain ⟨hheader, hfields⟩ := header.cancel hfields
      obtain ⟨hflag, hbytes⟩ := Code.cancel _ hfields
      obtain ⟨rfl, rfl⟩ := Prod.mk.inj hheader
      have hready : flag = flag' := by
        cases flag <;> cases flag' <;> first | rfl | simp at hflag
      rw [hready, Code.injective _ hbytes]

/-- The runtime by its contract: bytes parse to the message they were made from. -/
noncomputable def parseBytes (bytes : List UInt8) : Payload :=
  open Classical in
  if h : ∃ message : ClientMessage, message.serializeToString = bytes then .message h.choose
  else .undecodable "wrong format"

theorem parseBytes_serializeToString (message : ClientMessage) :
    parseBytes message.serializeToString = .message message := by
  have h : ∃ m : ClientMessage, m.serializeToString = message.serializeToString := ⟨message, rfl⟩
  rw [parseBytes, dif_pos h, serializeToString_inj h.choose_spec]

end ClientMessage

theorem build_decodes_gift :
    ∃ message, build (.offer "P02" ⟨3, 0, 0⟩ 0 9) "sim" "r1" = .ok message ∧
      ∃ command fingerprint,
      decodeClientMessage plainDigest (ClientMessage.parseBytes message.serializeToString) =
        .ok command ∧ command.request = .command "r1" (.offer "P02" ⟨3, 0, 0⟩ 0 9) fingerprint := by
  obtain ⟨hcommands, _⟩ := @build_decodes plainDigest ClientMessage.parseBytes
    (fun message _ => ClientMessage.parseBytes_serializeToString message) "sim" "r1"
  obtain ⟨message, hbuild, hdecodes⟩ :=
    hcommands (.offer "P02" ⟨3, 0, 0⟩ 0 9) (by simp) (by unfold Fits; decide)
  obtain ⟨command, fingerprint, hdecode, _, _, _, _, hrequest⟩ :=
    hdecodes none message.serializeToString rfl
  exact ⟨message, hbuild, command, fingerprint, hdecode, hrequest⟩

end SpaceportBazaar
