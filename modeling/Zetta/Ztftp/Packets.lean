import Zetta.Lib.BigEndian
import Zetta.Lib.Decimal
import Zetta.Lib.Text

/-!
# Packets of a file transfer

A request names a file, a mode and options; the server may acknowledge the options it takes.
Data and acknowledgements carry the number of a block, in sixteen bits.

* `packetOpcode`, `packetBlock`: what the two sides look at (`packetOpcode_dataPacket`, ...).
* **Options**: an acknowledgement is read back as it was written
  (`parsedBlockSize_optionAckPacket`), and so is a request (`parseRequest_requestPacketWith`).
-/

namespace Zetta.Ztftp

open List

def DEFAULT_BLOCK_SIZE : ℕ := 512
def REQUESTED_BLOCK_SIZE : ℕ := 1428
def MIN_BLOCK_SIZE : ℕ := 8
def MAX_BLOCK_SIZE : ℕ := 65464
/-- How often a packet is sent before the transfer is given up. -/
def MAX_RETRIES : ℕ := 5
/-- The largest upload. -/
def MAX_UPLOAD_BYTES : ℕ := 4 * 1024 * 1024 * 1024

def OP_RRQ : UInt16 := 1
def OP_WRQ : UInt16 := 2
def OP_DATA : UInt16 := 3
def OP_ACK : UInt16 := 4
def OP_ERROR : UInt16 := 5
def OP_OACK : UInt16 := 6

/-- A text in a packet, as its bytes. -/
abbrev Field : Type := List UInt8

def OCTET : Field := ascii ['o', 'c', 't', 'e', 't']
def BLKSIZE : Field := ascii ['b', 'l', 'k', 's', 'i', 'z', 'e']
def TSIZE : Field := ascii ['t', 's', 'i', 'z', 'e']

/-! ### Opcodes and blocks -/

/-- A number of sixteen bits, the high byte first. -/
def toBeBytes (n : UInt16) : List UInt8 := beBytes 2 n.toNat

def fromBeBytes (bytes : List UInt8) : UInt16 := UInt16.ofNat (ofBeBytes bytes)

def packetOpcode (packet : List UInt8) : Option UInt16 :=
  if 2 ≤ packet.length then some (fromBeBytes (packet.take 2)) else none

def packetBlock (packet : List UInt8) : Option UInt16 :=
  if 4 ≤ packet.length then some (fromBeBytes ((packet.drop 2).take 2)) else none

/-- `set_data_packet` -/
def dataPacket (block : UInt16) (data : List UInt8) : List UInt8 :=
  toBeBytes OP_DATA ++ toBeBytes block ++ data

def ackPacket (block : UInt16) : List UInt8 := toBeBytes OP_ACK ++ toBeBytes block

/-- `push_field` -/
def fieldBytes (field : Field) : List UInt8 := field ++ [0]

/-- `send_error` -/
def errorPacket (code : UInt16) (message : Field) : List UInt8 :=
  toBeBytes OP_ERROR ++ toBeBytes code ++ fieldBytes message

/-- Options, each a name and a value. -/
def optionBytes (options : List (Field × Field)) : List UInt8 :=
  options.flatMap fun option => fieldBytes option.1 ++ fieldBytes option.2

def optionAckPacket (options : List (Field × Field)) : List UInt8 :=
  toBeBytes OP_OACK ++ optionBytes options

theorem fromBeBytes_toBeBytes (n : UInt16) : fromBeBytes (toBeBytes n) = n := by
  have hlt : n.toNat < 256 ^ 2 := n.toNat_lt
  rw [fromBeBytes, toBeBytes, ofBeBytes_beBytes_of_lt hlt, UInt16.ofNat_toNat]

theorem length_toBeBytes (n : UInt16) : (toBeBytes n).length = 2 := length_beBytes 2 _

theorem packetOpcode_append (opcode : UInt16) (rest : List UInt8) :
    packetOpcode (toBeBytes opcode ++ rest) = some opcode := by
  have hlength := length_toBeBytes opcode
  rw [packetOpcode, if_pos (by rw [length_append]; omega), take_left' hlength,
    fromBeBytes_toBeBytes]

theorem packetBlock_append (opcode block : UInt16) (rest : List UInt8) :
    packetBlock (toBeBytes opcode ++ toBeBytes block ++ rest) = some block := by
  have hopcode := length_toBeBytes opcode
  have hblock := length_toBeBytes block
  rw [packetBlock, if_pos (by simp only [length_append]; omega), append_assoc,
    drop_left' hopcode, take_left' hblock, fromBeBytes_toBeBytes]

variable (block : UInt16) (data : List UInt8)

@[simp]
theorem packetOpcode_dataPacket : packetOpcode (dataPacket block data) = some OP_DATA := by
  rw [dataPacket, append_assoc, packetOpcode_append]

@[simp]
theorem packetBlock_dataPacket :
    packetBlock (dataPacket block data) = some block := packetBlock_append _ _ _

@[simp]
theorem drop_dataPacket : (dataPacket block data).drop 4 = data :=
  drop_left' (by rw [length_append, length_toBeBytes, length_toBeBytes])

@[simp]
theorem packetOpcode_ackPacket : packetOpcode (ackPacket block) = some OP_ACK :=
  packetOpcode_append _ _

@[simp]
theorem packetBlock_ackPacket : packetBlock (ackPacket block) = some block := by
  have := packetBlock_append OP_ACK block []
  rwa [append_nil] at this

@[simp]
theorem packetOpcode_errorPacket (code : UInt16) (message : Field) :
    packetOpcode (errorPacket code message) = some OP_ERROR := by
  rw [errorPacket, append_assoc, packetOpcode_append]

@[simp]
theorem packetOpcode_optionAckPacket (options : List (Field × Field)) :
    packetOpcode (optionAckPacket options) = some OP_OACK := packetOpcode_append _ _

/-! ### Requests -/

/-- The options a client may ask for. -/
def options (blockSize size : Option ℕ) : List (Field × Field) :=
  (blockSize.map fun n => (BLKSIZE, Decimal.decimal n)).toList ++
    (size.map fun n => (TSIZE, Decimal.decimal n)).toList

/-- A request with some options. -/
def requestPacketWith (opcode : UInt16) (filename : Field) (options : List (Field × Field)) :
    List UInt8 :=
  toBeBytes opcode ++ fieldBytes filename ++ fieldBytes OCTET ++ optionBytes options

/-- The request the client sends. -/
def requestPacket (opcode : UInt16) (filename : Field) (size : Option ℕ) : List UInt8 :=
  requestPacketWith opcode filename (options (some REQUESTED_BLOCK_SIZE) (some (size.getD 0)))

/-- The fields that end in a zero byte; `field` has been read. -/
def fieldsFrom (field : Field) : List UInt8 → Except String (List Field)
  | [] => if field = [] then .ok [] else .error "request field is not terminated"
  | byte :: bytes =>
    if byte = 0 then
      if field = [] then .error "request contains an empty field"
      else (fieldsFrom [] bytes).map fun fields => field :: fields
    else fieldsFrom (field ++ [byte]) bytes

def zeroTerminatedFields (bytes : List UInt8) : Except String (List Field) := fieldsFrom [] bytes

structure Request where
  write : Bool
  filename : Field
  mode : Field
  options : List (Field × Field)
  deriving DecidableEq

def toAsciiLowercase (field : Field) : Field :=
  field.map fun byte => if 0x41 ≤ byte ∧ byte ≤ 0x5a then byte + 0x20 else byte

/-- `String::from_utf8` -/
def utf8 (field : Field) (error : String) : Except String Field :=
  if field.toByteArray.IsValidUTF8 then .ok field else .error error

/-- Fields two by two. -/
def pairs : List Field → List (Field × Field)
  | name :: value :: fields => (name, value) :: pairs fields
  | _ => []

/-- One option of a request. -/
def parseOption (pair : Field × Field) : Except String (Field × Field) := do
  let name ← utf8 pair.1 "option name is not UTF-8"
  let value ← utf8 pair.2 "option value is not UTF-8"
  pure (toAsciiLowercase name, value)

def parseRequest (packet : List UInt8) : Except String Request := do
  if packet.length < 4 then throw "request is too short"
  let opcode := fromBeBytes (packet.take 2)
  if opcode ≠ OP_RRQ ∧ opcode ≠ OP_WRQ then throw "expected a read or write request"
  let fields ← zeroTerminatedFields (packet.drop 2)
  match fields with
  | filename :: mode :: rest =>
    if fields.length % 2 ≠ 0 then throw "request has malformed fields"
    let filename ← utf8 filename "filename is not UTF-8"
    let mode ← utf8 mode "transfer mode is not UTF-8"
    let options ← (pairs rest).mapM parseOption
    pure ⟨opcode = OP_WRQ, filename, toAsciiLowercase mode, options⟩
  | _ => throw "request has malformed fields"

/-! ### Negotiation -/

/-- The block size that a value asks for. -/
def blockSizeOf (value : Field) : Option ℕ :=
  (Decimal.parseUnsigned (2 ^ 64) value).filter fun n => MIN_BLOCK_SIZE ≤ n ∧ n ≤ MAX_BLOCK_SIZE

/-- What the options of a read come to: the block size, and what is acknowledged. -/
def negotiatedOptions (options : List (Field × Field)) (fileSize : ℕ) :
    ℕ × List (Field × Field) :=
  options.foldl
    (fun acc option =>
      if option.1 = BLKSIZE then
        match blockSizeOf option.2 with
        | some requested => (requested, acc.2 ++ [(option.1, Decimal.decimal requested)])
        | none => acc
      else if option.1 = TSIZE then (acc.1, acc.2 ++ [(option.1, Decimal.decimal fileSize)])
      else acc)
    (DEFAULT_BLOCK_SIZE, [])

/-- What the options of a write come to: the block size, the size announced, and what is
acknowledged. -/
def negotiatedWriteOptions (options : List (Field × Field)) :
    ℕ × Option ℕ × List (Field × Field) :=
  options.foldl
    (fun acc option =>
      if option.1 = BLKSIZE then
        match blockSizeOf option.2 with
        | some requested =>
          (requested, acc.2.1, acc.2.2 ++ [(option.1, Decimal.decimal requested)])
        | none => acc
      else if option.1 = TSIZE then
        match Decimal.parseUnsigned (2 ^ 64) option.2 with
        | some size => (acc.1, some size, acc.2.2 ++ [(option.1, Decimal.decimal size)])
        | none => acc
      else acc)
    (DEFAULT_BLOCK_SIZE, none, [])

/-- The block size among some options, if there is a good one. -/
def findBlockSize : List (Field × Field) → Option ℕ
  | [] => none
  | (name, value) :: options =>
    if toAsciiLowercase name = BLKSIZE then
      if value.toByteArray.IsValidUTF8 then blockSizeOf value else none
    else findBlockSize options

/-- The block size that an acknowledgement of options says. -/
def parsedBlockSize (packet : List UInt8) : Option ℕ :=
  if packetOpcode packet = some OP_OACK then
    match zeroTerminatedFields (packet.drop 2) with
    | .ok fields => findBlockSize (pairs fields)
    | .error _ => none
  else none

/-! ### Reading what was written -/

/-- A field that can be written: not empty, and no zero byte in it. -/
def Writable (field : Field) : Prop := field ≠ [] ∧ 0 ∉ field

instance (field : Field) : Decidable (Writable field) :=
  inferInstanceAs (Decidable (field ≠ [] ∧ 0 ∉ field))

variable {field : Field}

theorem fieldsFrom_fieldBytes (start : Field) (h : 0 ∉ field) (hne : start ++ field ≠ [])
    (rest : List UInt8) :
    fieldsFrom start (fieldBytes field ++ rest) =
      (fieldsFrom [] rest).map fun fields => (start ++ field) :: fields := by
  induction field generalizing start with
  | nil =>
    rw [append_nil] at hne ⊢
    simp [fieldBytes, fieldsFrom, hne]
  | cons byte field ih =>
    obtain ⟨hbyte, hfield⟩ := not_or.mp (mem_cons.not.mp h)
    have htail := ih (start ++ [byte]) hfield (by simp)
    rw [fieldBytes, cons_append, cons_append, fieldsFrom, if_neg (Ne.symm hbyte)]
    rw [fieldBytes] at htail
    rw [htail, append_assoc, singleton_append]

theorem zeroTerminatedFields_flatMap {fields : List Field} (h : ∀ field ∈ fields, Writable field) :
    zeroTerminatedFields (fields.flatMap fieldBytes) = .ok fields := by
  induction fields with
  | nil => rfl
  | cons field fields ih =>
    obtain ⟨hne, hzero⟩ := h field (mem_cons_self ..)
    have htail := ih fun field hfield => h field (mem_cons_of_mem _ hfield)
    rw [zeroTerminatedFields] at htail ⊢
    rw [flatMap_cons, fieldsFrom_fieldBytes [] hzero hne, htail]
    rfl

/-- The fields of some options. -/
def optionFields (options : List (Field × Field)) : List Field :=
  options.flatMap fun option => [option.1, option.2]

theorem optionBytes_eq (options : List (Field × Field)) :
    optionBytes options = (optionFields options).flatMap fieldBytes := by
  simp [optionBytes, optionFields, flatMap_assoc]

@[simp]
theorem pairs_optionFields (options : List (Field × Field)) :
    pairs (optionFields options) = options := by
  induction options with
  | nil => rfl
  | cons option options ih => exact congrArg (option :: ·) ih

theorem length_optionFields (options : List (Field × Field)) :
    (optionFields options).length = 2 * options.length := by
  induction options with
  | nil => rfl
  | cons option options ih =>
    rw [optionFields, flatMap_cons, ← optionFields, length_append, ih]
    simp only [length_cons, length_nil]
    omega

theorem writable_decimal (n : ℕ) : Writable (Decimal.decimal n) := by
  refine ⟨Decimal.decimal_ne_nil n, fun hzero => ?_⟩
  exact absurd (Decimal.isDigit_of_mem_decimal hzero).1 (by decide)

theorem isAscii_decimal (n : ℕ) : IsAscii (Decimal.decimal n) := fun b hb =>
  UInt8.lt_of_le_of_lt (Decimal.isDigit_of_mem_decimal hb).2 (by decide)

theorem utf8_of_isAscii (h : IsAscii field) (error : String) :
    utf8 field error = .ok field := if_pos (isValidUTF8_of_isAscii h)

/-- An option with a number: a known name, and its decimal spelling. -/
def IsNumber (option : Field × Field) : Prop :=
  (option.1 = BLKSIZE ∨ option.1 = TSIZE) ∧ ∃ n, option.2 = Decimal.decimal n

variable {blockSize : Option ℕ} {option : Field × Field}

theorem isNumber_of_mem_options {size : Option ℕ} (h : option ∈ options blockSize size) :
    IsNumber option := by
  rcases mem_append.mp h with h | h
  · obtain ⟨n, -, rfl⟩ := Option.map_eq_some_iff.mp (Option.mem_toList.mp h)
    exact ⟨Or.inl rfl, n, rfl⟩
  · obtain ⟨n, -, rfl⟩ := Option.map_eq_some_iff.mp (Option.mem_toList.mp h)
    exact ⟨Or.inr rfl, n, rfl⟩

theorem IsNumber.writable (h : IsNumber option) :
    Writable option.1 ∧ Writable option.2 := by
  obtain ⟨hname, n, hvalue⟩ := h
  refine ⟨?_, hvalue ▸ writable_decimal n⟩
  rcases hname with hname | hname <;> rw [hname] <;> decide

theorem IsNumber.parseOption (h : IsNumber option) :
    parseOption option = .ok option := by
  obtain ⟨hname, n, hvalue⟩ := h
  have hascii : IsAscii option.1 ∧ toAsciiLowercase option.1 = option.1 := by
    rcases hname with hname | hname <;> rw [hname] <;> exact ⟨by unfold IsAscii; decide +kernel, by decide⟩
  rw [Ztftp.parseOption, utf8_of_isAscii hascii.1, utf8_of_isAscii (hvalue ▸ isAscii_decimal n)]
  exact congrArg Except.ok (Prod.ext hascii.2 rfl)

theorem writable_of_mem_optionFields {options : List (Field × Field)}
    (h : ∀ option ∈ options, IsNumber option) (hfield : field ∈ optionFields options) :
    Writable field := by
  obtain ⟨option, hoption, hfield⟩ := mem_flatMap.mp hfield
  obtain ⟨hname, hvalue⟩ := (h option hoption).writable
  rcases mem_cons.mp hfield with rfl | hfield
  · exact hname
  · exact mem_singleton.mp hfield ▸ hvalue

/-- A list read element by element, each of which is read as it is. -/
theorem mapM_ok_self {α ε : Type*} {f : α → Except ε α} {l : List α} (h : ∀ a ∈ l, f a = .ok a) :
    l.mapM f = .ok l := by
  induction l with
  | nil => rfl
  | cons a l ih =>
    rw [mapM_cons, h a (mem_cons_self ..), ih fun b hb => h b (mem_cons_of_mem _ hb)]
    rfl

/-- **A request is read as it was written**, if it is read at all. -/
theorem parseRequest_requestPacketWith {opcode : UInt16} {filename : Field}
    {options : List (Field × Field)} {request : Request} (hname : 0 ∉ filename)
    (h : ∀ option ∈ options, IsNumber option)
    (hrequest : parseRequest (requestPacketWith opcode filename options) = .ok request) :
    request = ⟨opcode = OP_WRQ, filename, OCTET, options⟩ := by
  have hrest : requestPacketWith opcode filename options =
      toBeBytes opcode ++ (fieldBytes filename ++ (OCTET :: optionFields options).flatMap fieldBytes) := by
    simp [requestPacketWith, optionBytes_eq]
  have hopcode : fromBeBytes ((requestPacketWith opcode filename options).take 2) = opcode := by
    rw [hrest, take_left' (length_toBeBytes opcode), fromBeBytes_toBeBytes]
  have hdrop : (requestPacketWith opcode filename options).drop 2 =
      fieldBytes filename ++ (OCTET :: optionFields options).flatMap fieldBytes := by
    rw [hrest, drop_left' (length_toBeBytes opcode)]
  have hoptions : zeroTerminatedFields ((OCTET :: optionFields options).flatMap fieldBytes) =
      .ok (OCTET :: optionFields options) := by
    refine zeroTerminatedFields_flatMap fun field hfield => ?_
    rcases mem_cons.mp hfield with rfl | hfield
    · decide
    · exact writable_of_mem_optionFields h hfield
  rw [parseRequest, hopcode, hdrop] at hrequest
  by_cases hempty : filename = []
  · -- an empty name is refused
    subst hempty
    have hfields : zeroTerminatedFields
        (fieldBytes [] ++ (OCTET :: optionFields options).flatMap fieldBytes) =
        .error "request contains an empty field" := rfl
    rw [hfields] at hrequest
    simp only [bind, Except.bind, throw, throwThe, MonadExceptOf.throw] at hrequest
    split_ifs at hrequest
  · have hfields : zeroTerminatedFields
        (fieldBytes filename ++ (OCTET :: optionFields options).flatMap fieldBytes) =
        .ok (filename :: OCTET :: optionFields options) := by
      rw [zeroTerminatedFields, fieldsFrom_fieldBytes [] hname hempty, ← zeroTerminatedFields, hoptions]
      rfl
    have hlength : ¬((filename :: OCTET :: optionFields options).length % 2 ≠ 0) := by
      simp [length_optionFields]
      omega
    have hmode : utf8 OCTET "transfer mode is not UTF-8" = .ok OCTET :=
      utf8_of_isAscii (by unfold IsAscii; decide +kernel) _
    have hparsed : (pairs (optionFields options)).mapM parseOption = .ok options := by
      rw [pairs_optionFields]
      exact mapM_ok_self fun option hoption => (h option hoption).parseOption
    have hlower : toAsciiLowercase OCTET = OCTET := by decide
    rw [hfields] at hrequest
    simp only [bind, Except.bind, throw, throwThe, MonadExceptOf.throw, pure, Except.pure,
      if_neg hlength, hmode, hparsed, hlower] at hrequest
    split_ifs at hrequest
    rcases hutf8 : utf8 filename "filename is not UTF-8" with error | name
    · rw [hutf8] at hrequest
      cases hrequest
    · rw [hutf8] at hrequest
      obtain rfl : name = filename := by
        rw [utf8] at hutf8
        split_ifs at hutf8
        exact (Except.ok.inj hutf8).symm
      exact (Except.ok.inj hrequest).symm

/-! ### The block size both sides use -/

variable {n : ℕ}

theorem blockSizeOf_eq_some {value : Field} (h : blockSizeOf value = some n) :
    MIN_BLOCK_SIZE ≤ n ∧ n ≤ MAX_BLOCK_SIZE := by
  simpa using (Option.filter_eq_some_iff.mp h).2

theorem blockSizeOf_decimal (h : MIN_BLOCK_SIZE ≤ n ∧ n ≤ MAX_BLOCK_SIZE) :
    blockSizeOf (Decimal.decimal n) = some n := by
  have hbound : MAX_BLOCK_SIZE < 2 ^ 64 := by decide
  rw [blockSizeOf, Decimal.parseUnsigned_decimal (h.2.trans_lt hbound)]
  exact Option.filter_eq_some_iff.mpr ⟨rfl, by simpa using h⟩

/-- An acknowledgement is read option by option. -/
theorem parsedBlockSize_optionAckPacket {options : List (Field × Field)}
    (h : ∀ option ∈ options, IsNumber option) :
    parsedBlockSize (optionAckPacket options) = findBlockSize options := by
  have hdrop : (optionAckPacket options).drop 2 = (optionFields options).flatMap fieldBytes := by
    rw [optionAckPacket, drop_left' (length_toBeBytes OP_OACK), optionBytes_eq]
  rw [parsedBlockSize, packetOpcode_optionAckPacket, if_pos rfl, hdrop,
    zeroTerminatedFields_flatMap fun field hfield => writable_of_mem_optionFields h hfield]
  exact congrArg findBlockSize (pairs_optionFields options)

/-- A block size and what was acknowledged for it go together. -/
def Agree (blockSize : ℕ) (acknowledged : List (Field × Field)) : Prop :=
  0 < blockSize ∧ (parsedBlockSize (optionAckPacket acknowledged)).getD DEFAULT_BLOCK_SIZE = blockSize ∧
    (acknowledged = [] → blockSize = DEFAULT_BLOCK_SIZE)

/-- The acknowledged block size comes first, a size behind it. -/
theorem agree_acknowledged {requested : Option ℕ} (size : Option ℕ)
    (h : ∀ n ∈ requested, MIN_BLOCK_SIZE ≤ n ∧ n ≤ MAX_BLOCK_SIZE) :
    Agree (requested.getD DEFAULT_BLOCK_SIZE) (options requested size) := by
  have hfind : findBlockSize (options requested size) = requested := by
    have hsize : findBlockSize (size.map fun n => (TSIZE, Decimal.decimal n)).toList = none := by
      rcases size with - | n
      · rfl
      · exact if_neg (by decide)
    rcases requested with - | n
    · exact hsize
    · have hvalid := isValidUTF8_of_isAscii (isAscii_decimal n)
      have hname : toAsciiLowercase BLKSIZE = BLKSIZE := by decide
      simp only [options, Option.map_some, Option.toList_some, singleton_append, findBlockSize,
        if_pos hname, if_pos hvalid]
      exact blockSizeOf_decimal (h n rfl)
  refine ⟨?_, ?_, ?_⟩
  · rcases requested with - | n
    · decide
    · exact (by decide : 0 < MIN_BLOCK_SIZE).trans_le (h n rfl).1
  · rw [parsedBlockSize_optionAckPacket fun option => isNumber_of_mem_options, hfind]
  · intro hempty
    rcases requested with - | n
    · rfl
    · simp [options] at hempty

/-- What is taken of the block size asked for. -/
def granted (blockSize : Option ℕ) : Option ℕ :=
  blockSize.bind fun n => blockSizeOf (Decimal.decimal n)

theorem granted_bounds :
    ∀ n ∈ granted blockSize, MIN_BLOCK_SIZE ≤ n ∧ n ≤ MAX_BLOCK_SIZE := by
  intro n hn
  obtain ⟨m, -, hm⟩ := Option.bind_eq_some_iff.mp hn
  exact blockSizeOf_eq_some hm

/-- **A read**: both sides use one block size. -/
theorem negotiatedOptions_options (blockSize size : Option ℕ) (fileSize : ℕ) :
    negotiatedOptions (options blockSize size) fileSize =
      ((granted blockSize).getD DEFAULT_BLOCK_SIZE,
        options (granted blockSize) (size.map fun _ => fileSize)) := by
  have hne : TSIZE ≠ BLKSIZE := by decide
  rcases blockSize with - | n <;> rcases size with - | m <;>
    simp only [negotiatedOptions, options, granted, Option.map_none, Option.map_some,
      Option.toList_none, Option.toList_some, nil_append, append_nil, singleton_append,
      foldl_nil, foldl_cons, if_true, if_neg hne, Option.bind_none, Option.bind_some,
      Option.getD_none]
  · rcases blockSizeOf (Decimal.decimal n) with - | r <;> rfl
  · rcases blockSizeOf (Decimal.decimal n) with - | r <;> rfl

/-- What is taken of the size announced. -/
def announced (size : Option ℕ) : Option ℕ :=
  size.bind fun n => Decimal.parseUnsigned (2 ^ 64) (Decimal.decimal n)

/-- **A write**: both sides use one block size. -/
theorem negotiatedWriteOptions_options (blockSize size : Option ℕ) :
    negotiatedWriteOptions (options blockSize size) =
      ((granted blockSize).getD DEFAULT_BLOCK_SIZE, announced size,
        options (granted blockSize) (announced size)) := by
  have hne : TSIZE ≠ BLKSIZE := by decide
  rcases blockSize with - | n <;> rcases size with - | m <;>
    simp only [negotiatedWriteOptions, options, granted, announced, Option.map_none, Option.map_some,
      Option.toList_none, Option.toList_some, nil_append, append_nil, singleton_append,
      foldl_nil, foldl_cons, if_true, if_neg hne, Option.bind_none, Option.bind_some,
      Option.getD_none]
  · rcases Decimal.parseUnsigned (2 ^ 64) (Decimal.decimal m) with - | k <;> rfl
  · rcases blockSizeOf (Decimal.decimal n) with - | r <;> rfl
  · rcases blockSizeOf (Decimal.decimal n) with - | r <;>
      rcases Decimal.parseUnsigned (2 ^ 64) (Decimal.decimal m) with - | k <;> rfl

end Zetta.Ztftp
