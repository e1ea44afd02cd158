import Zetta.Ztftp.Packets

/-!
# The block size of a request

A request may ask for a block size more than once. The server takes the last good one and
acknowledges all of them (`acknowledged`); the client reads the first that is acknowledged
(`findBlockSize`). So both use the same one if and only if the first good one asked for is the last
(`blockSize_agrees_iff`).

What the client itself asks for is read by the server as it was written
(`parseRequest_requestPacket`).
-/

namespace Zetta.Ztftp

open List

/-- The good block sizes that options ask for. -/
def blockSizes (options : List (Field × Field)) : List ℕ :=
  options.filterMap fun option => if option.1 = BLKSIZE then blockSizeOf option.2 else none

/-- What is acknowledged of one option; `size` is what is said of a transfer size. -/
def acknowledge (size : Field → Option ℕ) (option : Field × Field) : Option (Field × Field) :=
  if option.1 = BLKSIZE then (blockSizeOf option.2).map fun n => (BLKSIZE, Decimal.decimal n)
  else if option.1 = TSIZE then (size option.2).map fun n => (TSIZE, Decimal.decimal n)
  else none

theorem filterMap_concat {α β : Type*} (f : α → Option β) (l : List α) (a : α) :
    (l ++ [a]).filterMap f = l.filterMap f ++ (f a).toList := by
  rw [filterMap_append, filterMap_cons, filterMap_nil]
  cases f a with
  | none => rfl
  | some b => rfl

theorem blockSizes_concat (options : List (Field × Field)) (option : Field × Field) :
    blockSizes (options ++ [option]) = blockSizes options ++
      (if option.1 = BLKSIZE then blockSizeOf option.2 else none).toList :=
  filterMap_concat _ options option

/-- **A read**: the last good block size, and all that is acknowledged in order. -/
theorem negotiatedOptions_eq (options : List (Field × Field)) (fileSize : ℕ) :
    negotiatedOptions options fileSize =
      ((blockSizes options).getLast?.getD DEFAULT_BLOCK_SIZE,
        options.filterMap (acknowledge fun _ => some fileSize)) := by
  induction options using List.reverseRecOn with
  | nil => rfl
  | append_singleton options option ih =>
    rw [negotiatedOptions, foldl_append, ← negotiatedOptions, ih, foldl_cons,
      foldl_nil, blockSizes_concat, filterMap_concat, acknowledge]
    by_cases hblksize : option.1 = BLKSIZE
    · rw [if_pos hblksize, if_pos hblksize, if_pos hblksize, hblksize]
      cases blockSizeOf option.2 with
      | none => simp
      | some n => simp
    rw [if_neg hblksize, if_neg hblksize, if_neg hblksize]
    by_cases htsize : option.1 = TSIZE
    · rw [if_pos htsize, if_pos htsize, htsize]
      simp
    · rw [if_neg htsize, if_neg htsize]
      simp

/-- **A write**: as a read, and the last size that is announced. -/
theorem negotiatedWriteOptions_eq (options : List (Field × Field)) :
    ∃ size, negotiatedWriteOptions options =
      ((blockSizes options).getLast?.getD DEFAULT_BLOCK_SIZE, size,
        options.filterMap (acknowledge (Decimal.parseUnsigned (2 ^ 64)))) := by
  induction options using List.reverseRecOn with
  | nil => exact ⟨none, rfl⟩
  | append_singleton options option ih =>
    obtain ⟨size, ih⟩ := ih
    rw [negotiatedWriteOptions, foldl_append, ← negotiatedWriteOptions, ih, foldl_cons,
      foldl_nil, blockSizes_concat, filterMap_concat, acknowledge]
    by_cases hblksize : option.1 = BLKSIZE
    · rw [if_pos hblksize, if_pos hblksize, if_pos hblksize, hblksize]
      refine ⟨size, ?_⟩
      cases blockSizeOf option.2 with
      | none => simp
      | some n => simp
    rw [if_neg hblksize, if_neg hblksize, if_neg hblksize]
    by_cases htsize : option.1 = TSIZE
    · rw [if_pos htsize, if_pos htsize, htsize]
      cases Decimal.parseUnsigned (2 ^ 64) option.2 with
      | none => exact ⟨size, by simp⟩
      | some n => exact ⟨some n, by simp⟩
    · rw [if_neg htsize, if_neg htsize]
      exact ⟨size, by simp⟩

/-- What is acknowledged has numbers. -/
theorem isNumber_acknowledge {size : Field → Option ℕ} {options : List (Field × Field)}
    {option : Field × Field} (h : option ∈ options.filterMap (acknowledge size)) :
    IsNumber option := by
  obtain ⟨asked, -, hone⟩ := mem_filterMap.1 h
  rw [acknowledge] at hone
  split_ifs at hone
  · obtain ⟨n, -, rfl⟩ := Option.map_eq_some_iff.1 hone
    exact ⟨.inl rfl, n, rfl⟩
  · obtain ⟨n, -, rfl⟩ := Option.map_eq_some_iff.1 hone
    exact ⟨.inr rfl, n, rfl⟩

variable (size : Field → Option ℕ)

/-- The first block size that is acknowledged is the first good one asked for. -/
theorem findBlockSize_acknowledge (options : List (Field × Field)) :
    findBlockSize (options.filterMap (acknowledge size)) = (blockSizes options).head? := by
  induction options with
  | nil => rfl
  | cons option options ih =>
    rw [blockSizes, filterMap_cons, filterMap_cons, ← blockSizes, acknowledge]
    by_cases hblksize : option.1 = BLKSIZE
    · rw [if_pos hblksize, if_pos hblksize]
      cases hvalue : blockSizeOf option.2 with
      | none => exact ih
      | some n =>
        have hname : toAsciiLowercase BLKSIZE = BLKSIZE := by decide
        have hvalid := isValidUTF8_of_isAscii (isAscii_decimal n)
        rw [Option.map_some, head?_cons]
        simp only [findBlockSize, if_pos hname, if_pos hvalid]
        exact blockSizeOf_decimal (blockSizeOf_eq_some hvalue)
    rw [if_neg hblksize, if_neg hblksize]
    by_cases htsize : option.1 = TSIZE
    · rw [if_pos htsize]
      cases size option.2 with
      | none => exact ih
      | some n =>
        have hname : toAsciiLowercase TSIZE ≠ BLKSIZE := by decide
        rw [Option.map_some]
        simp only [findBlockSize, if_neg hname]
        exact ih
    · rw [if_neg htsize]
      exact ih

/-- The block size that the client comes to: no options are acknowledged without one being taken. -/
def clientBlockSize (acknowledged : List (Field × Field)) : ℕ :=
  if acknowledged = [] then DEFAULT_BLOCK_SIZE
  else (parsedBlockSize (optionAckPacket acknowledged)).getD DEFAULT_BLOCK_SIZE

theorem clientBlockSize_acknowledge (options : List (Field × Field)) :
    clientBlockSize (options.filterMap (acknowledge size)) =
      (blockSizes options).head?.getD DEFAULT_BLOCK_SIZE := by
  have hfind := findBlockSize_acknowledge size options
  rw [clientBlockSize, parsedBlockSize_optionAckPacket fun option => isNumber_acknowledge, hfind]
  split_ifs with hempty
  · rw [hempty] at hfind
    rw [← hfind]
    rfl
  · rfl

/-- The client's block size is the server's if and only if the first is the last. -/
theorem head_eq_getLast_iff (sizes : List ℕ) (n : ℕ) :
    sizes.head?.getD n = sizes.getLast?.getD n ↔ sizes.head? = sizes.getLast? := by
  cases sizes with
  | nil => exact iff_of_true rfl rfl
  | cons a sizes => rw [getLast?_cons, head?_cons, Option.getD_some, Option.getD_some,
      Option.some.injEq]

/-- The client's own requests are read by the server as they were written. -/
theorem parseRequest_requestPacket {opcode : UInt16} (hopcode : opcode = OP_RRQ ∨ opcode = OP_WRQ)
    {name : Field} (hne : name ≠ []) (hzero : 0 ∉ name) (hutf8 : name.toByteArray.IsValidUTF8)
    (size : Option ℕ) :
    parseRequest (requestPacket opcode name size) =
      .ok ⟨opcode = OP_WRQ, name, OCTET, options (some REQUESTED_BLOCK_SIZE) (some (size.getD 0))⟩ := by
  have hpacket : requestPacket opcode name size =
      toBeBytes opcode ++ (name :: OCTET :: optionFields (options (some REQUESTED_BLOCK_SIZE)
        (some (size.getD 0)))).flatMap fieldBytes := by
    simp [requestPacket, requestPacketWith, optionBytes_eq]
  have hnumbers : ∀ option ∈ options (some REQUESTED_BLOCK_SIZE) (some (size.getD 0)),
      IsNumber option := fun option => isNumber_of_mem_options
  have hfields : zeroTerminatedFields ((requestPacket opcode name size).drop 2) =
      .ok (name :: OCTET :: optionFields (options (some REQUESTED_BLOCK_SIZE)
        (some (size.getD 0)))) := by
    rw [hpacket, drop_left' (length_toBeBytes opcode)]
    refine zeroTerminatedFields_flatMap fun field hfield => ?_
    rcases mem_cons.1 hfield with rfl | hfield
    · exact ⟨hne, hzero⟩
    rcases mem_cons.1 hfield with rfl | hfield
    · decide
    · exact writable_of_mem_optionFields hnumbers hfield
  have hopcode' : fromBeBytes ((requestPacket opcode name size).take 2) = opcode := by
    rw [hpacket, take_left' (length_toBeBytes opcode), fromBeBytes_toBeBytes]
  have hlong : ¬(requestPacket opcode name size).length < 4 := by
    have hoctet : (fieldBytes OCTET).length = 6 := by decide
    rw [hpacket]
    simp only [length_append, length_toBeBytes, flatMap_cons, hoctet]
    omega
  have hknown : ¬(opcode ≠ OP_RRQ ∧ opcode ≠ OP_WRQ) := by
    rcases hopcode with rfl | rfl
    · exact fun h => h.1 rfl
    · exact fun h => h.2 rfl
  have heven : ¬((name :: OCTET :: optionFields (options (some REQUESTED_BLOCK_SIZE)
      (some (size.getD 0)))).length % 2 ≠ 0) := by
    simp only [length_cons, length_optionFields]
    omega
  have hname : utf8 name "filename is not UTF-8" = .ok name := if_pos hutf8
  have hmode : utf8 OCTET "transfer mode is not UTF-8" = .ok OCTET :=
    utf8_of_isAscii (by unfold IsAscii; decide +kernel) _
  have hoptions : (pairs (optionFields (options (some REQUESTED_BLOCK_SIZE)
      (some (size.getD 0))))).mapM parseOption =
      .ok (options (some REQUESTED_BLOCK_SIZE) (some (size.getD 0))) := by
    rw [pairs_optionFields]
    exact mapM_ok_self fun option hoption => (hnumbers option hoption).parseOption
  have hlower : toAsciiLowercase OCTET = OCTET := by decide
  rw [parseRequest, hopcode', hfields]
  simp only [bind, Except.bind, pure, Except.pure, if_neg hlong, if_neg hknown, if_neg heven, hname,
    hmode, hoptions, hlower]

/-- **Both ends use one block size** if and only if the first good one that a request asks for is
the last; what the client itself asks for is read as it was written. -/
theorem blockSize_agrees_iff (packet : List UInt8) (request : Request) (fileSize : ℕ)
    (opcode : UInt16) (name : List UInt8) (size : Option ℕ) :
    (parseRequest packet = .ok request →
      (clientBlockSize (negotiatedOptions request.options fileSize).2 =
          (negotiatedOptions request.options fileSize).1 ↔
        (blockSizes request.options).head? = (blockSizes request.options).getLast?) ∧
      (clientBlockSize (negotiatedWriteOptions request.options).2.2 =
          (negotiatedWriteOptions request.options).1 ↔
        (blockSizes request.options).head? = (blockSizes request.options).getLast?)) ∧
    ((opcode = OP_RRQ ∨ opcode = OP_WRQ) → name ≠ [] → 0 ∉ name → name.toByteArray.IsValidUTF8 →
      parseRequest (requestPacket opcode name size) =
        .ok ⟨opcode = OP_WRQ, name, OCTET,
          options (some REQUESTED_BLOCK_SIZE) (some (size.getD 0))⟩) := by
  refine ⟨fun _ => ⟨?_, ?_⟩, fun hopcode hne hzero hutf8 =>
    parseRequest_requestPacket hopcode hne hzero hutf8 size⟩
  · rw [negotiatedOptions_eq, clientBlockSize_acknowledge, head_eq_getLast_iff]
  · obtain ⟨size, hwrite⟩ := negotiatedWriteOptions_eq request.options
    rw [hwrite, clientBlockSize_acknowledge, head_eq_getLast_iff]

/-- A request that asks for two block sizes. -/
private def twiceAsked : Request :=
  ⟨false, ascii ['a'], OCTET, [(BLKSIZE, Decimal.decimal 1024), (BLKSIZE, Decimal.decimal 2048)]⟩

/-- The server sends blocks of 2048 bytes to a client that has read 1024. -/
theorem blockSize_asked_twice :
    parseRequest (requestPacketWith OP_RRQ (ascii ['a']) twiceAsked.options) = .ok twiceAsked ∧
      (negotiatedOptions twiceAsked.options 0).1 = 2048 ∧
      clientBlockSize (negotiatedOptions twiceAsked.options 0).2 = 1024 := by
  refine ⟨?_, ?_, ?_⟩
  · decide +kernel
  · decide +kernel
  · decide +kernel

/-- The client's own request. -/
theorem blockSize_asked_once :
    clientBlockSize (negotiatedOptions (options (some REQUESTED_BLOCK_SIZE) (some 0)) 7).2 =
      (negotiatedOptions (options (some REQUESTED_BLOCK_SIZE) (some 0)) 7).1 := by
  have hread := (blockSize_agrees_iff [] twiceAsked 7 OP_RRQ (ascii ['a']) none).2 (.inl rfl)
    (by decide) (by decide) (isValidUTF8_of_isAscii (by unfold IsAscii; decide +kernel))
  exact ((blockSize_agrees_iff _ _ 7 OP_RRQ (ascii ['a']) none).1 hread).1.2 (by decide +kernel)

end Zetta.Ztftp
