import Zetta.Lib.FileTree

/-!
# The HTTP file server

What a request is answered with: its target is decoded and checked before anything is looked up
(`checkTarget`), then resolved and checked again (`resolveRequestPath`); a directory without an
index page is listed (`directoryIndex`).

* What is served is inside the root, and nothing on the way to it has a name that begins with a dot
  unless those are served (`confined`).
* A target that is refused for its text is refused whatever the files are.
* The links of a listing are decoded to what they are written for (`percentDecodeBytes_href`).
-/

namespace Zetta.Zhttp

open List FileTree

/-! ### Names and paths -/

/-- A part of a path, as `Path::components` sees it. -/
inductive Component
  | rootDir
  | curDir
  | parentDir
  | normal (name : Bytes)
  deriving DecidableEq

/-- The component after a slash. -/
def component? (name : Bytes) : Option Component :=
  if name = [] ∨ name = [dot] then none
  else if name = [dot, dot] then some .parentDir
  else some (.normal name)

/-- Empty names and dots are skipped, but not at the beginning. -/
def components (path : Bytes) : List Component :=
  match split path with
  | [] => []
  | first :: rest =>
    (if first = [dot] then [.curDir]
      else if first = [] ∧ path ≠ [] then [.rootDir]
      else (component? first).toList) ++ rest.filterMap component?

def isDotPrefixed (name : Bytes) : Bool := name.head? = some dot

def Component.isNormal : Component → Bool
  | normal _ => true
  | _ => false

def Component.isDotPrefixed : Component → Bool
  | normal name => Zhttp.isDotPrefixed name
  | _ => false

def hasDotPrefixedComponent (relative : Bytes) : Bool :=
  (components relative).any Component.isDotPrefixed

/-- Whether a canonical path has a name that begins with a dot below the root. -/
def resolvesThroughDotComponent (root path : Path) : Bool :=
  root.isPrefixOf path && (path.drop root.length).any isDotPrefixed

/-! ### Encoding -/

def hexDigits : Bytes := ascii "0123456789ABCDEF".toList

def hexValue (byte : UInt8) : Option UInt8 :=
  if 0x30 ≤ byte ∧ byte ≤ 0x39 then some (byte - 0x30)
  else if 0x61 ≤ byte ∧ byte ≤ 0x66 then some (byte - 0x61 + 10)
  else if 0x41 ≤ byte ∧ byte ≤ 0x46 then some (byte - 0x41 + 10)
  else none

def percent : UInt8 := 0x25

def isUnreserved (byte : UInt8) : Bool :=
  0x30 ≤ byte && byte ≤ 0x39 || 0x41 ≤ byte && byte ≤ 0x5A || 0x61 ≤ byte && byte ≤ 0x7A ||
    byte ∈ ascii ['-', '.', '_', '~']

def urlEncodeSegment (value : Bytes) : Bytes :=
  value.flatMap fun byte =>
    if isUnreserved byte then [byte]
    else [percent, hexDigits.getD (byte >>> 4).toNat 0, hexDigits.getD (byte &&& 0x0F).toNat 0]

def urlEncodePath (value : Bytes) : Bytes :=
  [slash].intercalate ((split value).map urlEncodeSegment)

/-- The bytes that are spelled out. -/
def percentDecodeBytes : Bytes → Option Bytes
  | [] => some []
  | byte :: rest =>
    if byte = percent then
      match rest with
      | high :: low :: rest => do
        let high ← hexValue high
        let low ← hexValue low
        return (high * 16 + low) :: (← percentDecodeBytes rest)
      | _ => none
    else (percentDecodeBytes rest).map (byte :: ·)

/-- `String::from_utf8`. -/
def fromUtf8 (bytes : Bytes) : Option Bytes :=
  if bytes.toByteArray.IsValidUTF8 then some bytes else none

def percentDecode (value : Bytes) : Option Bytes := do
  let decoded ← percentDecodeBytes value
  let decoded ← fromUtf8 decoded
  if 0 ∈ decoded then none else some decoded

/-- What a target says before its query. -/
def requestPath (target : Bytes) : Bytes := target.takeWhile (· ≠ 0x3F)

/-! ### Requests -/

inductive ResolveError
  | forbidden
  | dotPrefixed
  | notFound
  deriving DecidableEq

inductive ResolvedContent
  | file (path : Path)
  | directory (path : Path)
  deriving DecidableEq

def ResolvedContent.path : ResolvedContent → Path
  | file path | directory path => path

/-- What is checked before the files are looked at. -/
def checkTarget (target : Bytes) (serveDotfiles : Bool) : Except ResolveError Bytes :=
  match percentDecode (requestPath target) with
  | some (first :: relative) =>
    if first ≠ slash then .error .forbidden
    else if ¬(components relative).all Component.isNormal then .error .forbidden
    else if !serveDotfiles && hasDotPrefixedComponent relative then .error .dotPrefixed
    else .ok relative
  | _ => .error .forbidden

def indexHtml : Bytes := ascii "index.html".toList

/-- What a directory is answered with: its index page, if there is one. -/
def resolveDirectory (fs : FileSystem) (root : Path) (path : Path) (serveDotfiles : Bool) :
    Except ResolveError ResolvedContent :=
  match fs.canonicalize (path ++ [indexHtml]) with
  | .ok index =>
    if ¬root.isPrefixOf index then .error .forbidden
    else if !serveDotfiles && resolvesThroughDotComponent root index then .error .dotPrefixed
    else if fs.isFile index then .ok (.file index)
    else .ok (.directory path)
  | .error .notFound => .ok (.directory path)
  | .error _ => .error .notFound

def resolveRequestPath (fs : FileSystem) (root : Path) (target : Bytes) (serveDotfiles : Bool) :
    Except ResolveError ResolvedContent := do
  let relative ← checkTarget target serveDotfiles
  let path ← (fs.canonicalize (root ++ split relative)).mapError fun _ => .notFound
  if ¬root.isPrefixOf path then .error .forbidden
  else if !serveDotfiles && resolvesThroughDotComponent root path then .error .dotPrefixed
  else if fs.isDir path then resolveDirectory fs root path serveDotfiles
  else if fs.isFile path then .ok (.file path)
  else .error .notFound

/-! ### Listings -/

/-- An entry of a listing and the link that is written for it. -/
structure Link where
  name : Bytes
  isDirectory : Bool
  href : Bytes

def Node.isDirectory : Node → Bool
  | .directory _ => true
  | _ => false

def entryLink (baseUrl : Bytes) (entry : Bytes × Node) : Link where
  name := entry.1
  isDirectory := Node.isDirectory entry.2
  href := baseUrl ++ urlEncodeSegment entry.1 ++
    (if Node.isDirectory entry.2 then [slash] else [])

/-- The address of a directory, which ends with a slash. -/
def baseUrl (decodedPath : Bytes) : Bytes :=
  let url := urlEncodePath decodedPath
  if url.getLast? = some slash then url else url ++ [slash]

/-- An entry that is listed: its name is a text, and not hidden. -/
def isListed (serveDotfiles : Bool) (entry : Bytes × Node) : Bool :=
  (fromUtf8 entry.1).isSome && (serveDotfiles || !isDotPrefixed entry.1)

def htmlEscape (value : Bytes) : Bytes :=
  value.flatMap fun byte =>
    if byte = 0x26 then ascii "&amp;".toList
    else if byte = 0x3C then ascii "&lt;".toList
    else if byte = 0x3E then ascii "&gt;".toList
    else if byte = 0x22 then ascii "&quot;".toList
    else if byte = 0x27 then ascii "&#39;".toList
    else [byte]

/-- The line of a link. -/
def Link.line (link : Link) : Bytes :=
  ascii "<li><a href=\"".toList ++ link.href ++ ascii "\">".toList ++ htmlEscape link.name ++
    (if link.isDirectory then [slash] else []) ++ ascii "</a></li>\n".toList

/-- What a page of links begins with. -/
def pageHead (decodedPath : Bytes) : Bytes :=
  let title := ascii "Index of ".toList ++ htmlEscape decodedPath
  ascii "<!doctype html>\n<html>\n<head><meta charset=\"utf-8\"><title>".toList ++ title ++
    ascii "</title></head>\n<body>\n<h1>".toList ++ title ++ ascii "</h1>\n<ul>\n".toList ++
    if decodedPath = [slash] then [] else ascii "<li><a href=\"../\">../</a></li>\n".toList

def pageTail : Bytes := ascii "</ul>\n</body>\n</html>\n".toList

/-- The links of a directory, in the order of the names. -/
def directoryLinks (fs : FileSystem) (path : Path) (decodedPath : Bytes) (serveDotfiles : Bool) :
    Option (List Link) := do
  let entries ← fs.readDir path
  let entries := (entries.filter (isListed serveDotfiles)).mergeSort fun a b => a.1 ≤ b.1
  return entries.map (entryLink (baseUrl decodedPath))

def directoryIndex (fs : FileSystem) (path : Path) (target : Bytes) (serveDotfiles : Bool) :
    Option Bytes := do
  let decodedPath ← percentDecode (requestPath target)
  let links ← directoryLinks fs path decodedPath serveDotfiles
  return pageHead decodedPath ++ links.flatMap Link.line ++ pageTail

/-! ### Encoding and decoding -/

theorem hexValue_hexDigits {n : ℕ} (h : n < 16) :
    hexValue (hexDigits.getD n 0) = some (UInt8.ofNat n) := by
  have hall : ∀ n : Fin 16, hexValue (hexDigits.getD n 0) = some (UInt8.ofNat n) := by
    decide +kernel
  exact hall ⟨n, h⟩

variable (byte : UInt8)

theorem toNat_lowNibble : (byte &&& 0x0F).toNat = byte.toNat % 16 := by
  rw [UInt8.toNat_and]
  exact Nat.and_two_pow_sub_one_eq_mod byte.toNat 4

theorem toNat_highNibble : (byte >>> 4).toNat = byte.toNat / 16 := by
  rw [UInt8.toNat_shiftRight]
  exact Nat.shiftRight_eq_div_pow byte.toNat 4

theorem lowNibble_lt : (byte &&& 0x0F).toNat < 16 := by
  rw [toNat_lowNibble]
  exact Nat.mod_lt _ (by decide)

theorem highNibble_lt : (byte >>> 4).toNat < 16 := by
  have := byte.toNat_lt
  rw [toNat_highNibble]
  omega

theorem byte_of_nibbles :
    UInt8.ofNat (byte >>> 4).toNat * 16 + UInt8.ofNat (byte &&& 0x0F).toNat = byte := by
  have hbyte := byte.toNat_lt
  refine UInt8.toNat_inj.mp ?_
  rw [toNat_lowNibble, toNat_highNibble, UInt8.toNat_add, UInt8.toNat_mul, UInt8.toNat_ofNat',
    UInt8.toNat_ofNat']
  simp
  omega

theorem percentDecodeBytes_of_ne {byte : UInt8} (h : byte ≠ percent) (rest : Bytes) :
    percentDecodeBytes (byte :: rest) = (percentDecodeBytes rest).map (byte :: ·) := by
  rcases rest with _ | ⟨high, _ | ⟨low, rest⟩⟩ <;> simp [percentDecodeBytes, h]

theorem percentDecodeBytes_percent (high low : UInt8) (rest : Bytes) :
    percentDecodeBytes (percent :: high :: low :: rest) = do
      let high ← hexValue high
      let low ← hexValue low
      return (high * 16 + low) :: (← percentDecodeBytes rest) := by
  rw [percentDecodeBytes, if_pos rfl]

/-- An encoded segment is decoded to itself. -/
theorem percentDecodeBytes_urlEncodeSegment (value rest : Bytes) :
    percentDecodeBytes (urlEncodeSegment value ++ rest) =
      (percentDecodeBytes rest).map (value ++ ·) := by
  induction value with
  | nil => exact Option.map_id'.symm
  | cons byte value ih =>
    rw [urlEncodeSegment, flatMap_cons, append_assoc, ← urlEncodeSegment]
    have hbyte : percentDecodeBytes ((if isUnreserved byte then [byte]
        else [percent, hexDigits.getD (byte >>> 4).toNat 0,
          hexDigits.getD (byte &&& 0x0F).toNat 0]) ++ (urlEncodeSegment value ++ rest)) =
        (percentDecodeBytes (urlEncodeSegment value ++ rest)).map (byte :: ·) := by
      by_cases hunreserved : isUnreserved byte
      · have hne : byte ≠ percent := by
          rintro rfl
          exact absurd hunreserved (by decide)
        rw [if_pos hunreserved, cons_append, nil_append,
          percentDecodeBytes_of_ne hne]
      · rw [if_neg hunreserved, cons_append, cons_append, cons_append,
          nil_append, percentDecodeBytes_percent, hexValue_hexDigits (highNibble_lt byte),
          hexValue_hexDigits (lowNibble_lt byte)]
        rw [Option.bind_eq_bind, Option.bind_some, Option.bind_eq_bind, Option.bind_some,
          byte_of_nibbles]
        exact Option.map_eq_bind.symm
    rw [hbyte, ih, Option.map_map]
    rfl

/-- What is written for a byte of a path. -/
def urlEncodePathByte (byte : UInt8) : Bytes :=
  if byte = slash then [slash] else urlEncodeSegment [byte]

theorem urlEncodeSegment_cons (value : Bytes) :
    urlEncodeSegment (byte :: value) = urlEncodeSegment [byte] ++ urlEncodeSegment value := by
  rw [urlEncodeSegment, urlEncodeSegment, urlEncodeSegment, flatMap_cons,
    flatMap_singleton]

/-- A path is encoded byte by byte, and its slashes stay. -/
theorem urlEncodePath_eq (value : Bytes) : urlEncodePath value = value.flatMap urlEncodePathByte := by
  induction value with
  | nil => rfl
  | cons byte value ih =>
    obtain ⟨first, rest, hsplit⟩ := exists_cons_of_ne_nil (splitOn_ne_nil slash value)
    rw [urlEncodePath, split, hsplit] at ih
    rw [urlEncodePath, split, splitOn_cons_eq_if_modifyHead, hsplit, flatMap_cons, ← ih,
      urlEncodePathByte]
    by_cases hbyte : byte = slash
    · rw [if_pos (beq_iff_eq.mpr hbyte), if_pos hbyte, map_cons, map_cons,
        intercalate_cons_cons]
      rfl
    · rw [if_neg (by simpa using hbyte), if_neg hbyte, modifyHead_cons, map_cons,
        map_cons, urlEncodeSegment_cons]
      cases rest with
      | nil =>
        rw [map_nil, intercalate_singleton, intercalate_singleton]
      | cons second rest =>
        rw [map_cons, intercalate_cons_cons, intercalate_cons_cons,
          append_assoc, append_assoc, append_assoc]

theorem percentDecodeBytes_urlEncodePath (value rest : Bytes) :
    percentDecodeBytes (urlEncodePath value ++ rest) =
      (percentDecodeBytes rest).map (value ++ ·) := by
  rw [urlEncodePath_eq]
  induction value with
  | nil => exact Option.map_id'.symm
  | cons byte value ih =>
    have hbyte : ∀ rest, percentDecodeBytes (urlEncodePathByte byte ++ rest) =
        (percentDecodeBytes rest).map (byte :: ·) := by
      intro rest
      rw [urlEncodePathByte]
      split_ifs with hslash
      · rw [hslash]
        exact percentDecodeBytes_of_ne (by decide) rest
      · exact percentDecodeBytes_urlEncodeSegment [byte] rest
    rw [flatMap_cons, append_assoc, hbyte, ih, Option.map_map]
    rfl

variable {value : Bytes} {b : UInt8}

/-- Nothing that is written for a byte of a name looks like the end of the path. -/
theorem ne_of_mem_urlEncodeSegment (h : b ∈ urlEncodeSegment value) :
    b ≠ 0x3F ∧ b ≠ slash := by
  have hdigit : ∀ n, n < 16 → hexDigits.getD n 0 ≠ 0x3F ∧ hexDigits.getD n 0 ≠ slash := by
    have hall : ∀ n : Fin 16, hexDigits.getD n 0 ≠ 0x3F ∧ hexDigits.getD n 0 ≠ slash := by
      decide +kernel
    exact fun n hn => hall ⟨n, hn⟩
  obtain ⟨byte, -, hb⟩ := mem_flatMap.mp h
  split_ifs at hb with hunreserved
  · obtain rfl := mem_singleton.mp hb
    constructor
    · rintro rfl
      exact absurd hunreserved (by decide)
    · rintro rfl
      exact absurd hunreserved (by decide)
  · simp only [mem_cons, not_mem_nil, or_false] at hb
    rcases hb with rfl | rfl | rfl
    · decide
    · exact hdigit _ (highNibble_lt byte)
    · exact hdigit _ (lowNibble_lt byte)

theorem ne_of_mem_urlEncodePath (h : b ∈ urlEncodePath value) :
    b ≠ 0x3F := by
  rw [urlEncodePath_eq] at h
  obtain ⟨byte, -, hb⟩ := mem_flatMap.mp h
  rw [urlEncodePathByte] at hb
  split_ifs at hb
  · rw [mem_singleton.mp hb]
    decide
  · exact (ne_of_mem_urlEncodeSegment hb).1

/-- Only a path that ends with a slash is encoded as one. -/
theorem getLast?_of_urlEncodePath (h : (urlEncodePath value).getLast? = some slash) :
    value.getLast? = some slash := by
  rcases eq_nil_or_concat' value with rfl | ⟨init, byte, rfl⟩
  · cases h
  · rw [getLast?_concat]
    by_contra hne
    have hbyte : byte ≠ slash := fun heq => hne (congrArg some heq)
    rw [urlEncodePath_eq, flatMap_append, flatMap_singleton, urlEncodePathByte,
      if_neg hbyte, getLast?_append] at h
    rcases hlast : (urlEncodeSegment [byte]).getLast? with _ | b
    · have hnil := getLast?_eq_none_iff.mp hlast
      rw [urlEncodeSegment, flatMap_singleton] at hnil
      split_ifs at hnil
    · rw [hlast, Option.some_or] at h
      exact (ne_of_mem_urlEncodeSegment (mem_of_getLast? hlast)).2 (Option.some.inj h)

/-! ### Components -/

/-- The components after a slash. -/
theorem components_append {path : Bytes} (h : path ≠ []) (rest : Bytes) :
    components (path ++ slash :: rest) =
      components path ++ (split rest).filterMap component? := by
  obtain ⟨first, more, hsplit⟩ := exists_cons_of_ne_nil (splitOn_ne_nil slash path)
  have hne : path ++ slash :: rest ≠ [] := append_ne_nil_of_left_ne_nil h _
  rw [components, components, split, splitOn_append_cons_self, split, hsplit]
  dsimp only [cons_append]
  rw [filterMap_append, append_assoc]
  simp only [h, hne, ne_eq, not_false_eq_true, and_true]
  rfl

variable {name : Bytes}

theorem split_name (h : IsName name) : split name = [name] :=
  splitOn_eq_singleton h.2.2.2.1

theorem component?_name (h : IsName name) :
    component? name = some (.normal name) := by
  rw [component?, if_neg (not_or.mpr ⟨h.1, h.2.1⟩), if_neg h.2.2.1]

/-- What is written for an entry, before it is encoded. -/
def entryPath (name : Bytes) (isDirectory : Bool) : Bytes :=
  name ++ if isDirectory then [slash] else []

/-- A name, with or without a slash behind it. -/
theorem split_entry (h : IsName name) (isDirectory : Bool) :
    ∃ rest, split (entryPath name isDirectory) = name :: rest ∧
      rest.filterMap component? = [] := by
  cases isDirectory with
  | false => exact ⟨[], by rw [entryPath, if_neg (by decide), append_nil, split_name h], rfl⟩
  | true =>
    refine ⟨[[]], ?_, rfl⟩
    rw [entryPath, if_pos rfl, split, splitOn_append_cons_self, ← split, split_name h]
    rfl

theorem components_entry (h : IsName name) (isDirectory : Bool) :
    components (entryPath name isDirectory) = [.normal name] := by
  obtain ⟨rest, hsplit, hrest⟩ := split_entry h isDirectory
  rw [components, hsplit]
  dsimp only
  rw [if_neg h.2.1, if_neg fun hnil => h.1 hnil.1, component?_name h, hrest]
  rfl

variable {relative : Bytes}

/-- What a link of a directory adds to the components of the directory. -/
theorem components_link (h : IsName name) (isDirectory : Bool) (hne : relative ≠ []) :
    components (relative ++ slash :: (entryPath name isDirectory)) =
      components relative ++ [.normal name] := by
  obtain ⟨rest, hsplit, hrest⟩ := split_entry h isDirectory
  rw [components_append hne, hsplit, filterMap_cons_some (component?_name h), hrest]

/-! ### Links -/

/-- What the address of a directory is decoded to. -/
def decodedBase (decodedPath : Bytes) : Bytes :=
  if (urlEncodePath decodedPath).getLast? = some slash then decodedPath else decodedPath ++ [slash]

theorem percentDecodeBytes_baseUrl (decodedPath rest : Bytes) :
    percentDecodeBytes (baseUrl decodedPath ++ rest) =
      (percentDecodeBytes rest).map (decodedBase decodedPath ++ ·) := by
  rw [baseUrl, decodedBase]
  split_ifs
  · exact percentDecodeBytes_urlEncodePath ..
  · rw [append_assoc, percentDecodeBytes_urlEncodePath, singleton_append,
      percentDecodeBytes_of_ne (by decide), Option.map_map]
    simp [Function.comp_def]

/-- The path of an entry, from that of a directory that is listed. -/
theorem exists_relative (hnormal : (components relative).all Component.isNormal)
    (hname : IsName name) (isDirectory : Bool) :
    ∃ relative', decodedBase (slash :: relative) ++
        (entryPath name isDirectory) = slash :: relative' ∧
      components relative' = components relative ++ [.normal name] ∧
      (isDirectory = false → ∃ above below, split relative = above ++ below ∧
        (below = [] ∨ below = [[]]) ∧ split relative' = above ++ [name]) := by
  have hsplit : ∀ path : Bytes, isDirectory = false →
      split (path ++ slash :: (entryPath name isDirectory)) =
        split path ++ [name] := by
    rintro path rfl
    rw [split, splitOn_append_cons_self, entryPath, if_neg (by decide), append_nil,
      ← split, ← split, split_name hname]
  rw [decodedBase]
  split_ifs with hlast
  · have hslash := getLast?_of_urlEncodePath hlast
    rcases eq_nil_or_concat' relative with rfl | ⟨above, last, rfl⟩
    · -- The root directory itself.
      refine ⟨_, rfl, components_entry hname isDirectory, fun hfile => ⟨[], [[]], rfl, .inr rfl, ?_⟩⟩
      rw [hfile]
      exact (congrArg split (append_nil name)).trans (split_name hname)
    · obtain rfl : last = slash := by
        rw [← cons_append, getLast?_concat] at hslash
        exact Option.some.inj hslash
      have hne : above ≠ [] := by
        rintro rfl
        exact absurd hnormal (by decide)
      refine ⟨above ++ slash :: (entryPath name isDirectory), ?_, ?_, fun hfile =>
        ⟨split above, [[]], ?_, .inr rfl, hsplit above hfile⟩⟩
      · simp
      · have habove : components (above ++ [slash]) = components above := by
          rw [components_append hne]
          exact append_nil _
        rw [components_link hname isDirectory hne, habove]
      · rw [split, splitOn_append_cons_self]
        rfl
  · have hne : relative ≠ [] := by
      rintro rfl
      exact hlast (by decide +kernel)
    refine ⟨relative ++ slash :: (entryPath name isDirectory), ?_,
      components_link hname isDirectory hne, fun hfile =>
      ⟨split relative, [], (append_nil _).symm, .inl rfl, hsplit relative hfile⟩⟩
    simp

/-! ### Checking a target -/

theorem checkTarget_eq_ok_iff {target : Bytes} {serveDotfiles : Bool} :
    checkTarget target serveDotfiles = .ok relative ↔
      percentDecode (requestPath target) = some (slash :: relative) ∧
        (components relative).all Component.isNormal ∧
        (serveDotfiles = false → hasDotPrefixedComponent relative = false) := by
  rw [checkTarget]
  rcases percentDecode (requestPath target) with _ | _ | ⟨first, rest⟩
  · simp
  · simp
  · dsimp only
    by_cases hslash : first = slash
    · subst hslash
      rw [if_neg (not_not.mpr rfl)]
      by_cases hnormal : (components rest).all Component.isNormal
      · rw [if_neg (not_not.mpr hnormal)]
        by_cases hdot : (!serveDotfiles && hasDotPrefixedComponent rest) = true
        · rw [if_pos hdot]
          obtain ⟨hserve, hdot⟩ := (Bool.and_eq_true ..).mp hdot
          constructor
          · intro h
            cases h
          · rintro ⟨h, -, hnot⟩
            obtain rfl := (List.cons.inj (Option.some.inj h)).2
            rw [hnot (by simpa using hserve)] at hdot
            cases hdot
        · rw [if_neg hdot]
          constructor
          · intro h
            cases h
            exact ⟨rfl, hnormal, fun hserve => by simpa [hserve] using hdot⟩
          · rintro ⟨h, -⟩
            rw [(List.cons.inj (Option.some.inj h)).2]
      · rw [if_pos hnormal]
        constructor
        · intro h
          cases h
        · rintro ⟨h, hall, -⟩
          obtain rfl := (List.cons.inj (Option.some.inj h)).2
          exact absurd hall hnormal
    · rw [if_pos hslash]
      constructor
      · intro h
        cases h
      · rintro ⟨h, -⟩
        exact absurd (List.cons.inj (Option.some.inj h)).1 hslash

/-- The bytes of a text without zeros. -/
def IsText (bytes : Bytes) : Prop := bytes.toByteArray.IsValidUTF8 ∧ 0 ∉ bytes

theorem IsText.append {bytes bytes' : Bytes} (h : IsText bytes) (h' : IsText bytes') :
    IsText (bytes ++ bytes') := by
  refine ⟨?_, fun hmem => (mem_append.mp hmem).elim h.2 h'.2⟩
  rw [toByteArray_append]
  exact h.1.append h'.1

theorem isText_slash : IsText [slash] := by
  refine ⟨isValidUTF8_of_isAscii fun b hb => ?_, by decide⟩
  rw [mem_singleton.mp hb]
  decide

theorem isText_nil : IsText [] := ⟨ByteArray.isValidUTF8_empty, not_mem_nil⟩

theorem isText_decodedBase {decodedPath : Bytes} (h : IsText decodedPath) :
    IsText (decodedBase decodedPath) := by
  rw [decodedBase]
  split_ifs
  · exact h
  · exact h.append isText_slash

theorem isText_entryPath (h : IsText name) (isDirectory : Bool) :
    IsText (entryPath name isDirectory) := by
  refine h.append ?_
  split_ifs
  · exact isText_slash
  · exact isText_nil

variable {decoded : Bytes}

theorem percentDecode_eq_some (h : percentDecodeBytes value = some decoded) (htext : IsText decoded) :
    percentDecode value = some decoded := by
  obtain ⟨hvalid, hnul⟩ := htext
  have hutf8 : fromUtf8 decoded = some decoded := if_pos hvalid
  rw [percentDecode, h, Option.bind_eq_bind, Option.bind_some, hutf8,
    Option.bind_some, if_neg hnul]

theorem of_percentDecode_eq_some (h : percentDecode value = some decoded) :
    IsText decoded := by
  obtain ⟨bytes, -, h⟩ := Option.bind_eq_some_iff.mp h
  obtain ⟨bytes', hutf8, h⟩ := Option.bind_eq_some_iff.mp h
  rw [fromUtf8] at hutf8
  split_ifs at hutf8 with hvalid
  split_ifs at h with hnul
  cases hutf8
  cases h
  exact ⟨hvalid, hnul⟩

/-- Nothing behind a question mark is decoded, and there is none. -/
theorem requestPath_href (decodedPath : Bytes) (entry : Bytes × Node) :
    requestPath (entryLink (baseUrl decodedPath) entry).href =
      (entryLink (baseUrl decodedPath) entry).href := by
  refine takeWhile_eq_self_iff.mpr fun b hb => decide_eq_true ?_
  have hslash : ∀ b : UInt8, b ∈ [slash] → b ≠ 0x3F := by
    intro b hb
    rw [mem_singleton.mp hb]
    decide
  rcases mem_append.mp hb with hb | hb
  · rcases mem_append.mp hb with hb | hb
    · rw [baseUrl] at hb
      split_ifs at hb
      · exact ne_of_mem_urlEncodePath hb
      · rcases mem_append.mp hb with hb | hb
        · exact ne_of_mem_urlEncodePath hb
        · exact hslash b hb
    · exact (ne_of_mem_urlEncodeSegment hb).1
  · split_ifs at hb
    · exact hslash b hb
    · cases hb

theorem percentDecodeBytes_href (decodedPath : Bytes) (entry : Bytes × Node) :
    percentDecodeBytes (entryLink (baseUrl decodedPath) entry).href =
      some (decodedBase decodedPath ++ entryPath entry.1 (Node.isDirectory entry.2)) := by
  have hsuffix : percentDecodeBytes (if Node.isDirectory entry.2 then [slash] else []) =
      some (if Node.isDirectory entry.2 then [slash] else []) := by
    split_ifs
    · exact percentDecodeBytes_of_ne (by decide) []
    · rfl
  rw [entryLink, append_assoc, percentDecodeBytes_baseUrl,
    percentDecodeBytes_urlEncodeSegment, hsuffix]
  rfl

/-! ### Answers -/

section Answers

variable {fs : FileSystem} {root : Path} {target : Bytes} {serveDotfiles : Bool}

variable {content : ResolvedContent}

/-- What is resolved, from the checks that it has passed. -/
theorem exists_of_resolve (h : resolveRequestPath fs root target serveDotfiles = .ok content) :
    ∃ relative path, checkTarget target serveDotfiles = .ok relative ∧
      fs.canonicalize (root ++ split relative) = .ok path ∧ root.isPrefixOf path ∧
      (serveDotfiles = false → resolvesThroughDotComponent root path = false) ∧
      (fs.isDir path = true ∧ resolveDirectory fs root path serveDotfiles = .ok content ∨
        content = .file path) := by
  rw [resolveRequestPath] at h
  rcases hcheck : checkTarget target serveDotfiles with e | relative
  · rw [hcheck] at h
    cases h
  rcases hpath : fs.canonicalize (root ++ split relative) with e | path
  · rw [hcheck] at h
    simp only [hpath, bind, Except.bind, Except.mapError] at h
    cases h
  · rw [hcheck] at h
    simp only [hpath, bind, Except.bind, Except.mapError] at h
    split_ifs at h with hroot hdot hdir hfile
    · exact ⟨relative, path, rfl, hpath, hroot, fun hserve => by simpa [hserve] using hdot,
        .inl ⟨hdir, h⟩⟩
    · exact ⟨relative, path, rfl, hpath, hroot, fun hserve => by simpa [hserve] using hdot,
        .inr (Except.ok.inj h).symm⟩

variable {path : Path}

/-- What a directory is answered with: its index page, checked like the directory, or itself. -/
theorem path_of_resolveDirectory (h : resolveDirectory fs root path serveDotfiles = .ok content) :
    content = .directory path ∨ ∃ index, content = .file index ∧ root.isPrefixOf index ∧
      (serveDotfiles = false → resolvesThroughDotComponent root index = false) := by
  rw [resolveDirectory] at h
  split at h
  · split_ifs at h with hroot hdot hfile
    · exact .inr ⟨_, (Except.ok.inj h).symm, hroot,
        fun hserve => by simpa [hserve] using hdot⟩
    · exact .inl (Except.ok.inj h).symm
  · exact .inl (Except.ok.inj h).symm
  · cases h

/-- Below the root no name of a path begins with a dot. -/
def Hidden (root path : Path) : Prop := ∃ name ∈ path.drop root.length, isDotPrefixed name = true

theorem not_hidden (hroot : root.isPrefixOf path = true)
    (h : resolvesThroughDotComponent root path = false) : ¬Hidden root path := by
  rintro ⟨name, hname, hdot⟩
  rw [resolvesThroughDotComponent, hroot, Bool.true_and] at h
  exact absurd (any_eq_true.mpr ⟨name, hname, hdot⟩) (by simpa using h)

/-- **What is served is inside the root**, and no name on the way to it is hidden. -/
theorem confined (h : resolveRequestPath fs root target serveDotfiles = .ok content) :
    root <+: content.path ∧ (serveDotfiles = false → ∃ relative path,
      checkTarget target serveDotfiles = .ok relative ∧
      fs.canonicalize (root ++ split relative) = .ok path ∧
      hasDotPrefixedComponent relative = false ∧ ¬Hidden root path ∧
      ¬Hidden root content.path) := by
  obtain ⟨relative, path, hcheck, hpath, hroot, hdot, hcontent⟩ := exists_of_resolve h
  have hchecked := (checkTarget_eq_ok_iff.mp hcheck).2.2
  have hcontents : root.isPrefixOf content.path = true ∧
      (serveDotfiles = false → resolvesThroughDotComponent root content.path = false) := by
    rcases hcontent with ⟨-, hdirectory⟩ | rfl
    · rcases path_of_resolveDirectory hdirectory with rfl | ⟨index, rfl, hindex⟩
      · exact ⟨hroot, hdot⟩
      · exact hindex
    · exact ⟨hroot, hdot⟩
  exact ⟨List.isPrefixOf_iff_prefix.mp hcontents.1, fun hserve => ⟨relative, path, hcheck, hpath,
    hchecked hserve, not_hidden hroot (hdot hserve), not_hidden hcontents.1 (hcontents.2 hserve)⟩⟩

/-- The components of a target. -/
def targetComponents (target : Bytes) : List Component :=
  match percentDecode (requestPath target) with
  | some (_ :: relative) => components relative
  | _ => []

/-- A component for which a target is refused. -/
def Component.Refused (serveDotfiles : Bool) (c : Component) : Prop :=
  c.isNormal = false ∨ serveDotfiles = false ∧ c.isDotPrefixed = true

/-- **A target that is refused for its text** is refused whatever the files are. -/
theorem exists_refusal {c : Component} (hc : c ∈ targetComponents target)
    (hrefused : c.Refused serveDotfiles) :
    ∃ e, ∀ fs root, resolveRequestPath fs root target serveDotfiles = .error e := by
  rcases hcheck : checkTarget target serveDotfiles with e | relative
  · refine ⟨e, fun fs root => ?_⟩
    rw [resolveRequestPath, hcheck]
    rfl
  · obtain ⟨hdecoded, hnormal, hdot⟩ := checkTarget_eq_ok_iff.mp hcheck
    rw [targetComponents, hdecoded] at hc
    rcases hrefused with hnot | ⟨hserve, hprefixed⟩
    · rw [all_eq_true.mp hnormal c hc] at hnot
      cases hnot
    · have hany : hasDotPrefixedComponent relative = true :=
        any_eq_true.mpr ⟨c, hc, hprefixed⟩
      rw [hdot hserve] at hany
      cases hany

/-! ### The links of a listing -/

variable {entry : Bytes × Node}

/-- An entry that is listed is named by a text, which is hidden only when that is served. -/
theorem of_isListed (h : isListed serveDotfiles entry = true) :
    entry.1.toByteArray.IsValidUTF8 ∧
      (serveDotfiles = false → isDotPrefixed entry.1 = false) := by
  rw [isListed, Bool.and_eq_true] at h
  refine ⟨?_, fun hserve => by simpa [hserve] using h.2⟩
  by_contra hinvalid
  rw [fromUtf8, if_neg hinvalid] at h
  cases h.1

/-- **A link** is decoded to the path of its entry and passes the checks of a target. -/
theorem checkTarget_href {relative : Bytes}
    (hcheck : checkTarget target serveDotfiles = .ok relative) (hname : IsName entry.1)
    (hlisted : isListed serveDotfiles entry = true) :
    ∃ relative',
      percentDecode (requestPath (entryLink (baseUrl (slash :: relative)) entry).href) =
        some (slash :: relative') ∧
      slash :: relative' = decodedBase (slash :: relative) ++
        entryPath entry.1 (Node.isDirectory entry.2) ∧
      checkTarget (entryLink (baseUrl (slash :: relative)) entry).href serveDotfiles =
        .ok relative' ∧
      components relative' = components relative ++ [.normal entry.1] ∧
      (Node.isDirectory entry.2 = false → ∃ above below, split relative = above ++ below ∧
        (below = [] ∨ below = [[]]) ∧ split relative' = above ++ [entry.1]) := by
  obtain ⟨hdecoded, hnormal, hdot⟩ := checkTarget_eq_ok_iff.mp hcheck
  obtain ⟨hutf8, hvisible⟩ := of_isListed hlisted
  obtain ⟨relative', hrelative, hcomponents, hsplit⟩ :=
    exists_relative hnormal hname (Node.isDirectory entry.2)
  have hdecodes : percentDecode (requestPath (entryLink (baseUrl (slash :: relative)) entry).href) =
      some (slash :: relative') := by
    rw [← hrelative, requestPath_href]
    exact percentDecode_eq_some (percentDecodeBytes_href ..)
      ((isText_decodedBase (of_percentDecode_eq_some hdecoded)).append
        (isText_entryPath ⟨hutf8, hname.2.2.2.2⟩ _))
  refine ⟨relative', hdecodes, hrelative.symm, checkTarget_eq_ok_iff.mpr ⟨hdecodes, ?_, ?_⟩,
    hcomponents, hsplit⟩
  · rw [hcomponents, all_append, hnormal]
    rfl
  · intro hserve
    rw [hasDotPrefixedComponent, hcomponents, any_append]
    have hbefore := hdot hserve
    rw [hasDotPrefixedComponent] at hbefore
    rw [hbefore, Bool.false_or, any_cons, any_nil, Bool.or_false]
    exact hvisible hserve

variable {links m : ℕ} {before reached : Path}

theorem reached_nil (h : walk fs.root links before [] = .ok (m, reached)) : before = reached := by
  obtain ⟨follow, hwalk⟩ := walk_eq fs.root links
  rw [hwalk] at h
  exact (Prod.mk.inj (Except.ok.inj h)).2

theorem reached_slash (h : walk fs.root links before [[]] = .ok (m, reached)) :
    before = reached := by
  obtain ⟨follow, hwalk⟩ := walk_eq fs.root links
  rw [hwalk, walkWith] at h
  split at h
  · rw [if_pos (.inl rfl)] at h
    exact (Prod.mk.inj (Except.ok.inj h)).2
  · cases h

variable {entries : List (Bytes × Node)}

/-- A file of a directory is reached from wherever the directory was reached. -/
theorem canonicalize_file {above below : Path} (hbelow : below = [] ∨ below = [[]])
    (hpath : fs.canonicalize (above ++ below) = .ok path)
    (hentries : fs.root.lookup path = some (.directory entries)) {name : Bytes}
    (hname : IsName name) (hfile : entries.lookup name = some .file) :
    fs.canonicalize (above ++ [name]) = .ok (path ++ [name]) := by
  have habove : ∃ m, walk fs.root fs.maxLinks [] above = .ok (m, path) := by
    rcases hwalk : walk fs.root fs.maxLinks [] (above ++ below) with e | ⟨m, reached⟩
    · rw [FileSystem.canonicalize, hwalk] at hpath
      cases hpath
    · rw [FileSystem.canonicalize, hwalk] at hpath
      cases hpath
      rw [walk_append] at hwalk
      rcases hbefore : walk fs.root fs.maxLinks [] above with e | ⟨m', before⟩
      · rw [hbefore] at hwalk
        cases hwalk
      · rw [hbefore] at hwalk
        -- A slash at the end leads nowhere else.
        rcases hbelow with rfl | rfl
        · exact ⟨m', congrArg (fun p => (Except.ok (m', p) : Except IoError (ℕ × Path)))
            (reached_nil hwalk)⟩
        · exact ⟨m', congrArg (fun p => (Except.ok (m', p) : Except IoError (ℕ × Path)))
            (reached_slash hwalk)⟩
  obtain ⟨m, habove⟩ := habove
  have hlast : walk fs.root m path [name] = .ok (m, path ++ [name]) := by
    refine walk_of_real ⟨.file, ?_, rfl⟩ fun name' hmem => ?_
    · rw [Node.lookup_append, hentries, Option.bind_some, Node.lookup, hfile]
      rfl
    · rw [mem_singleton.mp hmem]
      exact hname
  have hwalk : walk fs.root fs.maxLinks [] (above ++ [name]) = .ok (m, path ++ [name]) := by
    rw [walk_append, habove]
    exact hlast
  rw [FileSystem.canonicalize, hwalk]
  rfl

/-- A directory that is listed. -/
theorem directory_of_resolve
    (h : resolveRequestPath fs root target serveDotfiles = .ok (.directory path)) :
    ∃ relative entries, checkTarget target serveDotfiles = .ok relative ∧
      fs.canonicalize (root ++ split relative) = .ok path ∧ root.isPrefixOf path ∧
      (serveDotfiles = false → resolvesThroughDotComponent root path = false) ∧
      fs.readDir path = some entries ∧ fs.root.lookup path = some (.directory entries) := by
  obtain ⟨relative, path', hcheck, hpath, hroot, hdot, hcontent⟩ := exists_of_resolve h
  obtain ⟨hdir, rfl⟩ : fs.isDir path' = true ∧ path = path' := by
    rcases hcontent with ⟨hdir, hdirectory⟩ | hfile
    · rcases path_of_resolveDirectory hdirectory with hsame | ⟨index, hindex, -⟩
      · exact ⟨hdir, ResolvedContent.directory.inj hsame⟩
      · cases hindex
    · cases hfile
  have hmetadata := FileSystem.metadata_of_real (FileSystem.real_of_canonicalize hpath)
  rw [FileSystem.isDir] at hdir
  split at hdir
  · next entries hentries =>
    refine ⟨relative, entries, hcheck, hpath, hroot, hdot, ?_, hmetadata ▸ hentries⟩
    rw [FileSystem.readDir, hentries]
  · cases hdir

/-- **A regular file that is listed** is what its link is answered with. -/
theorem resolve_file {relative' name : Bytes} {target' : Bytes}
    (hcheck : checkTarget target' serveDotfiles = .ok relative')
    (hpath : fs.canonicalize (root ++ split relative') = .ok (path ++ [name]))
    (hroot : root.isPrefixOf path)
    (hdot : serveDotfiles = false → resolvesThroughDotComponent root path = false)
    (hvisible : serveDotfiles = false → isDotPrefixed name = false)
    (hentries : fs.root.lookup path = some (.directory entries))
    (hfile : entries.lookup name = some .file) :
    resolveRequestPath fs root target' serveDotfiles = .ok (.file (path ++ [name])) := by
  have hstarts : root.isPrefixOf (path ++ [name]) = true :=
    List.isPrefixOf_iff_prefix.mpr ((List.isPrefixOf_iff_prefix.mp hroot).trans
      (prefix_append ..))
  have hlookup : fs.root.lookup (path ++ [name]) = some .file := by
    rw [Node.lookup_append, hentries, Option.bind_some, Node.lookup, hfile]
    rfl
  have hmetadata : fs.metadata (path ++ [name]) = some .file :=
    (FileSystem.metadata_of_real ⟨_, hlookup, rfl⟩).trans hlookup
  have hshown : (!serveDotfiles && resolvesThroughDotComponent root (path ++ [name])) = false := by
    cases serveDotfiles with
    | true => rfl
    | false =>
      have hbefore := hdot rfl
      have hlength := (List.isPrefixOf_iff_prefix.mp hroot).length_le
      rw [resolvesThroughDotComponent, hroot, Bool.true_and] at hbefore
      rw [resolvesThroughDotComponent, hstarts, drop_append_of_le_length hlength,
        any_append, hbefore, any_cons, hvisible rfl]
      rfl
  rw [resolveRequestPath, hcheck]
  simp only [hpath, bind, Except.bind, Except.mapError]
  rw [if_neg (not_not.mpr hstarts), hshown, FileSystem.isDir, FileSystem.isFile, hmetadata]
  rfl

/-- **The server never leaves its root or names what it hides.** What is served is inside the root,
and without dotfiles no name on the way to it begins with a dot. A target with a component that is
refused is refused whatever the files are. Every entry of a listing whose name is a text, and not
hidden, has a link, which is decoded to the path of the entry and passes the checks of a target; a
regular file is what its link is answered with. -/
theorem served_within_root (fs : FileSystem) (root : Path) (target : Bytes) (serveDotfiles : Bool) :
    (∀ content, resolveRequestPath fs root target serveDotfiles = .ok content →
      root <+: content.path ∧ (serveDotfiles = false → ∃ relative path,
        checkTarget target serveDotfiles = .ok relative ∧
        fs.canonicalize (root ++ split relative) = .ok path ∧
        hasDotPrefixedComponent relative = false ∧ ¬Hidden root path ∧
        ¬Hidden root content.path)) ∧
    (∀ c ∈ targetComponents target, c.Refused serveDotfiles →
      ∃ e, ∀ fs root, resolveRequestPath fs root target serveDotfiles = .error e) ∧
    ∀ path, resolveRequestPath fs root target serveDotfiles = .ok (.directory path) →
      ∃ (relative : Bytes) (entries : List (Bytes × Node)) (links : List Link),
        checkTarget target serveDotfiles = .ok relative ∧
        percentDecode (requestPath target) = some (slash :: relative) ∧
        fs.readDir path = some entries ∧
        directoryIndex fs path target serveDotfiles =
          some (pageHead (slash :: relative) ++ links.flatMap Link.line ++ pageTail) ∧
        ∀ entry ∈ entries, isListed serveDotfiles entry = true →
          ∃ link ∈ links, ∃ relative', link.name = entry.1 ∧
            percentDecode (requestPath link.href) =
              some (decodedBase (slash :: relative) ++
                entryPath entry.1 (Node.isDirectory entry.2)) ∧
            checkTarget link.href serveDotfiles = .ok relative' ∧
            components relative' = components relative ++ [.normal entry.1] ∧
            (entry.2 = .file → resolveRequestPath fs root link.href serveDotfiles =
              .ok (.file (path ++ [entry.1]))) := by
  refine ⟨fun content h => confined h, fun c hc hrefused => exists_refusal hc hrefused,
    fun path h => ?_⟩
  obtain ⟨relative, entries, hcheck, hpath, hroot, hdot, hread, hentries⟩ := directory_of_resolve h
  have hdecoded := (checkTarget_eq_ok_iff.mp hcheck).1
  let listed := (entries.filter (isListed serveDotfiles)).mergeSort fun a b => a.1 ≤ b.1
  refine ⟨relative, entries, listed.map (entryLink (baseUrl (slash :: relative))), hcheck, hdecoded,
    hread, ?_, fun entry hentry hlisted => ?_⟩
  · have hlinks : directoryLinks fs path (slash :: relative) serveDotfiles =
        some (listed.map (entryLink (baseUrl (slash :: relative)))) := by
      rw [directoryLinks, hread]
      rfl
    rw [directoryIndex, hdecoded, Option.bind_eq_bind, Option.bind_some, hlinks]
    rfl
  · have hname : IsName entry.1 :=
      (fs.named path entries hentries).2 _ (mem_map_of_mem hentry)
    obtain ⟨relative', hdecodes, heq, hchecks, hcomponents, hsplit⟩ :=
      checkTarget_href hcheck hname hlisted
    have hmem : entry ∈ listed :=
      mem_mergeSort.mpr (mem_filter.mpr ⟨hentry, hlisted⟩)
    refine ⟨_, mem_map_of_mem hmem, relative', rfl, heq ▸ hdecodes, hchecks, hcomponents,
      fun hfile => ?_⟩
    have hlookup : entries.lookup entry.1 = some .file :=
      FileSystem.lookup_of_mem hentries (hfile ▸ hentry)
    obtain ⟨above, below, habove, hbelow, hlink⟩ := hsplit (by rw [hfile]; rfl)
    rw [habove, ← append_assoc] at hpath
    have hcanonical := canonicalize_file hbelow hpath hentries hname hlookup
    rw [append_assoc, ← hlink] at hcanonical
    exact resolve_file hchecks hcanonical hroot hdot (of_isListed hlisted).2 hentries hlookup

end Answers

/-- A root directory that holds nothing, or one file. -/
def fewFiles (name : Option {name : Bytes // IsName name}) : FileSystem where
  root := .directory (name.toList.map fun name => (name.1, .file))
  maxLinks := 40
  rooted := ⟨_, rfl⟩
  named := by
    intro path entries h
    cases name with
    | none =>
      rcases path with _ | ⟨name', path⟩
      · cases Option.some.inj h
        exact ⟨nodup_nil, by simp⟩
      · cases h
    | some name =>
      rcases path with _ | ⟨name', path⟩
      · cases Option.some.inj h
        exact ⟨nodup_singleton _, by simpa using name.2⟩
      · -- There is nothing below a file.
        rw [Node.lookup, Option.bind_eq_some_iff] at h
        obtain ⟨node, hnode, hpath⟩ := h
        have hfile : node = .file := by
          simp only [Option.toList_some, map_cons, map_nil, lookup_cons] at hnode
          split at hnode
          · exact (Option.some.inj hnode).symm
          · cases hnode
        rw [hfile] at hpath
        cases path <;> cases hpath

/-- With dotfiles served, what a name with a dot is answered with depends on the files. -/
theorem dotGit_served_or_missing :
    .normal (ascii ".git".toList) ∈ targetComponents (ascii "/.git".toList) ∧
      resolveRequestPath (fewFiles (some ⟨ascii ".git".toList, by decide +kernel⟩)) []
        (ascii "/.git".toList) true = .ok (.file [ascii ".git".toList]) ∧
      resolveRequestPath (fewFiles none) [] (ascii "/.git".toList) true = .error .notFound := by
  constructor
  · decide +kernel
  · constructor
    · decide +kernel
    · decide +kernel

end Zetta.Zhttp
