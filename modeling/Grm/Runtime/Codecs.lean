import Grm.Runtime.Persisted

/-!
# Codecs and the binary form of a session

`serde_json` and `bincode` are taken as given: functions between values and bytes that
may fail, and, as hypotheses of the results that need them, that decoding undoes
encoding, that an encoded log record is one line, and that blank text is no record.
The binary form of a store keeps each property value as its JSON bytes.
-/

open Std

set_option autoImplicit false

abbrev Bytes := List UInt8

/-- `BinaryStoredNode`. -/
structure BinaryStoredNode where
  id : Int
  labels : List String
  props : BTreeMap String Bytes

/-- `BinaryStoredRel`. -/
structure BinaryStoredRel where
  id : Int
  relType : String
  fromId : Int
  toId : Int
  props : BTreeMap String Bytes

/-- `BinaryPersistedGraphStore`. -/
structure BinaryPersistedGraphStore where
  nextNodeId : Int
  nextRelId : Int
  nodes : BTreeMap Int BinaryStoredNode
  rels : BTreeMap Int BinaryStoredRel

/-- `BinaryPersistedSession`. -/
structure BinaryPersistedSession where
  graph : BinaryPersistedGraphStore
  catalog : SessionModelCatalog

/-- The codecs of `serde_json` and `bincode` at the types they are used at. -/
class Codecs where
  opToVec : DurableOperation → Option Bytes
  opFromSlice : Bytes → Option DurableOperation
  sessionToStringPretty : PersistedSession → Option String
  sessionFromStr : String → Option PersistedSession
  valueToVec : Value → Option Bytes
  valueFromSlice : Bytes → Option Value
  sessionSerialize : BinaryPersistedSession → Option Bytes
  /-- With the byte limit of `deserialize_limited_binary_session`. -/
  sessionDeserialize : Nat → Bytes → Option BinaryPersistedSession

/-- `b'\n'`. -/
def newline : UInt8 := 10

/-- `u8::is_ascii_whitespace`. -/
def isAsciiWhitespace (b : UInt8) : Bool := b == 32 || b == 9 || b == 10 || b == 12 || b == 13

/-- What the codecs promise: decoding undoes encoding, within the limit where there is
one; a compact record has no line break; blank text does not decode. -/
structure Codecs.Lawful [Codecs] : Prop where
  op : ∀ entry bytes, opToVec entry = some bytes → opFromSlice bytes = some entry
  oneLine : ∀ entry bytes, opToVec entry = some bytes → newline ∉ bytes
  blank : ∀ bytes : Bytes, bytes.all isAsciiWhitespace = true → opFromSlice bytes = none
  session : ∀ d text, sessionToStringPretty d = some text → sessionFromStr text = some d
  value : ∀ v bytes, valueToVec v = some bytes → valueFromSlice bytes = some v
  binary : ∀ d bytes limit, sessionSerialize d = some bytes → bytes.length ≤ limit →
    sessionDeserialize limit bytes = some d

section BinaryForm
variable [Codecs]

/-- `encode_props`. -/
def encodeProps (props : Props) : GrmResult (BTreeMap String Bytes) :=
  BTreeMap.tryMap
    (fun value => (Codecs.valueToVec value).elim (.error (.saveAborted "failed to encode property value")) .ok) props

/-- `decode_props`. -/
def decodeProps (props : BTreeMap String Bytes) : GrmResult Props :=
  BTreeMap.tryMap
    (fun bytes => (Codecs.valueFromSlice bytes).elim (.error (.loadAborted "failed to decode property value")) .ok) props

def StoredNode.toBinary (node : StoredNode) : GrmResult BinaryStoredNode :=
  (encodeProps node.props).map fun props => { id := node.id, labels := node.labels, props }

def BinaryStoredNode.toStored (node : BinaryStoredNode) : GrmResult StoredNode :=
  (decodeProps node.props).map fun props => { id := node.id, labels := node.labels, props }

def StoredRel.toBinary (rel : StoredRel) : GrmResult BinaryStoredRel :=
  (encodeProps rel.props).map fun props =>
    { id := rel.id, relType := rel.relType, fromId := rel.fromId, toId := rel.toId, props }

def BinaryStoredRel.toStored (rel : BinaryStoredRel) : GrmResult StoredRel :=
  (decodeProps rel.props).map fun props =>
    { id := rel.id, relType := rel.relType, fromId := rel.fromId, toId := rel.toId, props }

/-- `to_binary_persisted`. -/
def GraphStore.toBinaryPersisted (s : GraphStore) : GrmResult BinaryPersistedGraphStore := do
  let nodes ← BTreeMap.tryMap StoredNode.toBinary s.nodes
  let rels ← BTreeMap.tryMap StoredRel.toBinary s.rels
  return { nextNodeId := s.nextNodeId, nextRelId := s.nextRelId, nodes, rels }

/-- `from_binary_persisted`. -/
def GraphStore.fromBinaryPersisted (g : BinaryPersistedGraphStore) : GrmResult GraphStore := do
  let nodes ← BTreeMap.tryMap BinaryStoredNode.toStored g.nodes
  let rels ← BTreeMap.tryMap BinaryStoredRel.toStored g.rels
  return GraphStore.fromPersisted { nextNodeId := g.nextNodeId, nextRelId := g.nextRelId, nodes, rels }

/-! ## The binary form is undone -/

theorem decodeProps_encodeProps (lawful : Codecs.Lawful) {props : Props} {encoded : BTreeMap String Bytes}
    (ok : encodeProps props = .ok encoded) : decodeProps encoded = .ok props := by
  refine BTreeMap.tryMap_inverse (fun value bytes converted => ?_) ok
  cases vec : Codecs.valueToVec value with
  | none => rw [vec] at converted; cases converted
  | some found =>
    rw [vec] at converted
    cases converted
    rw [lawful.value value bytes vec]
    rfl

theorem StoredNode.toStored_toBinary (lawful : Codecs.Lawful) (node : StoredNode) (encoded : BinaryStoredNode)
    (ok : node.toBinary = .ok encoded) : encoded.toStored = .ok node := by
  obtain ⟨props, done, rfl⟩ := GrmResult.map_eq_ok.1 ok
  rw [BinaryStoredNode.toStored, decodeProps_encodeProps lawful done]
  rfl

theorem StoredRel.toStored_toBinary (lawful : Codecs.Lawful) (rel : StoredRel) (encoded : BinaryStoredRel)
    (ok : rel.toBinary = .ok encoded) : encoded.toStored = .ok rel := by
  obtain ⟨props, done, rfl⟩ := GrmResult.map_eq_ok.1 ok
  rw [BinaryStoredRel.toStored, decodeProps_encodeProps lawful done]
  rfl

/-- A store read back from its binary form is its durable part with indexes rebuilt. -/
theorem GraphStore.fromBinaryPersisted_toBinaryPersisted (lawful : Codecs.Lawful) {s : GraphStore}
    {encoded : BinaryPersistedGraphStore} (ok : s.toBinaryPersisted = .ok encoded) :
    fromBinaryPersisted encoded = .ok (fromPersisted s.toPersisted) := by
  obtain ⟨nodes, nodesDone, ok⟩ := GrmResult.bind_eq_ok.1 ok
  obtain ⟨rels, relsDone, ok⟩ := GrmResult.bind_eq_ok.1 ok
  cases ok
  rw [fromBinaryPersisted, BTreeMap.tryMap_inverse (StoredNode.toStored_toBinary lawful) nodesDone,
    BTreeMap.tryMap_inverse (StoredRel.toStored_toBinary lawful) relsDone]
  rfl

end BinaryForm

/-! ## Codecs of listed values -/

/-- The key a table has for a value. -/
noncomputable def encodeListed {α β : Type} (table : List (α × β)) (a : α) : Option β :=
  open Classical in (table.find? fun e => e.1 = a).map Prod.snd

/-- The value a table has for a key. -/
def decodeListed {α β : Type} [DecidableEq β] (table : List (α × β)) (b : β) : Option α :=
  (table.find? fun e => e.2 = b).map Prod.fst

theorem encodeListed_some {α β : Type} {table : List (α × β)} {a : α} {b : β} (found : encodeListed table a = some b) :
    (a, b) ∈ table := by
  classical
  unfold encodeListed at found
  obtain ⟨e, first, rfl⟩ := Option.map_eq_some_iff.1 found
  have same : e.1 = a := by simpa using List.find?_some first
  rw [← same]
  exact List.mem_of_find?_eq_some first

theorem encodeListed_head {α β : Type} (a : α) (b : β) (table : List (α × β)) :
    encodeListed ((a, b) :: table) a = some b := by
  simp [encodeListed]

theorem encodeListed_tail {α β : Type} {a c : α} (other : a ≠ c) (b : β) (table : List (α × β)) :
    encodeListed ((a, b) :: table) c = encodeListed table c := by
  simp [encodeListed, other]

theorem decodeListed_encodeListed {α β : Type} [DecidableEq β] {table : List (α × β)}
    (distinct : (table.map Prod.snd).Nodup) {a : α} {b : β} (found : encodeListed table a = some b) :
    decodeListed table b = some a := by
  have member := encodeListed_some found
  clear found
  induction table with
  | nil => cases member
  | cons e table ih =>
    rw [List.map_cons, List.nodup_cons] at distinct
    rcases List.mem_cons.1 member with rfl | later
    · simp [decodeListed]
    · have other : ¬ e.2 = b := fun same => distinct.1 (same ▸ List.mem_map_of_mem later)
      have rest := ih distinct.2 later
      unfold decodeListed at rest ⊢
      rw [List.find?_cons_of_neg (by simpa using other)]
      exact rest

/-- Codecs that have the given texts for the listed records and sessions, and fail on
every other value. -/
@[reducible] noncomputable def Codecs.listed (ops : List (DurableOperation × Bytes))
    (sessions : List (PersistedSession × String)) : Codecs where
  opToVec := encodeListed ops
  opFromSlice := decodeListed ops
  sessionToStringPretty := encodeListed sessions
  sessionFromStr := decodeListed sessions
  valueToVec _ := none
  valueFromSlice _ := none
  sessionSerialize _ := none
  sessionDeserialize _ _ := none

theorem Codecs.listed_lawful {ops : List (DurableOperation × Bytes)} {sessions : List (PersistedSession × String)}
    (records : (ops.map Prod.snd).Nodup) (lines : ∀ bytes ∈ ops.map Prod.snd, newline ∉ bytes)
    (visible : ∀ bytes ∈ ops.map Prod.snd, bytes.all isAsciiWhitespace = false)
    (texts : (sessions.map Prod.snd).Nodup) : @Codecs.Lawful (Codecs.listed ops sessions) :=
  letI := Codecs.listed ops sessions
  { op := fun _ _ => decodeListed_encodeListed records
    oneLine := fun _ _ found => lines _ (List.mem_map_of_mem (encodeListed_some found))
    blank := by
      intro bytes blank
      cases found : decodeListed ops bytes with
      | none => exact found
      | some entry =>
        obtain ⟨e, first, -⟩ := Option.map_eq_some_iff.1 found
        have same : e.2 = bytes := by simpa using List.find?_some first
        have seen := visible _ (List.mem_map_of_mem (List.mem_of_find?_eq_some first))
        rw [same, blank] at seen
        cases seen
    session := fun _ _ => decodeListed_encodeListed texts
    value := nofun
    binary := nofun }
