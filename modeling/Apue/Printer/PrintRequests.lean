import Apue.Printer.JobHeaders
import Apue.Printer.Receiving

/-! # The request that the printer receives

What `printer_thread` of `printer/printd.c` puts in front of the data of a job, read as the
printer reads it: lines up to an empty one, and then an IPP request with its attributes.
-/

namespace Apue.Printer.JobHeaders

open Apue.Foundation Ascii
open Submission (PrintReq IsInt32 htonl ntohl toUint32 uint32Bytes uint32At)
open JobNumbers (toInt32)

/-! ## Reading a request -/

/-- A line up to its end, and what is behind it. -/
def takeLine : Bytes → Option (Bytes × Bytes)
  | 13 :: 10 :: rest => some ([], rest)
  | byte :: rest => (takeLine rest).map fun (line, behind) => (byte :: line, behind)
  | [] => none

/-- The lines up to an empty one, with a bound on their number. -/
def takeLines : Nat → Bytes → Option (List Bytes × Bytes)
  | 0, _ => none
  | bound + 1, bytes => do
      let (line, rest) ← takeLine bytes
      if line = [] then return ([], rest)
      let (lines, body) ← takeLines bound rest
      return (line :: lines, body)

/-- The lines of the head and the body, which has the length that a line of the head announces. -/
def decodeHttp (bytes : Bytes) : Option (List Bytes × Bytes) := do
  let (lines, body) ← takeLines bytes.length bytes
  if text "Content-Length: " ++ decimal body.length ∈ lines then return (lines, body) else none

/-- An IPP request for a job, with the attributes and the document. -/
structure IppRequest where
  version : Bytes
  operation : Bytes
  requestId : Int
  attributes : List Attribute
  document : Bytes
  deriving DecidableEq

def decodeIpp (bytes : Bytes) : Option IppRequest := do
  let (attributes, document) ← decodeGroup (bytes.drop 8)
  return { version := bytes.take 2, operation := (bytes.drop 2).take 2,
           requestId := toInt32 (ntohl (uint32At bytes 4)), attributes, document }

/-! ## What the headers are -/

def crlf : Bytes := [13, 10]

def httpLines (printer_name : CString) (length : Nat) : List Bytes :=
  [text "POST /ipp HTTP/1.1", text "Content-Length: " ++ decimal length,
    text "Content-Type: application/ipp",
    text "Host: " ++ printer_name.1 ++ text ":" ++ decimal IPP_PORT]

def httpBytes (printer_name : CString) (length : Nat) : Bytes :=
  (httpLines printer_name length).flatMap (· ++ crlf) ++ crlf

def ippHeader (jobid : Int) : Bytes := [1, 1, 0, 2] ++ uint32Bytes (htonl (toUint32 jobid))

/-- The attributes of a job. -/
def jobAttributes (printer_name : CString) (behind : Bytes) (req : PrintReq) : List Attribute :=
  [⟨TAG_CHARSET, text "attributes-charset", text "utf-8"⟩,
    ⟨TAG_NATULANG, text "attributes-natural-language", text "en-us"⟩,
    ⟨TAG_URI, text "printer-uri", printerUri printer_name⟩,
    ⟨TAG_NAMEWOLANG, text "requesting-user-name", (usernm behind req).1⟩,
    ⟨TAG_NAMEWOLANG, text "job-name", (jobnm behind req).1⟩,
    ⟨TAG_MIMETYPE, text "document-format", (documentFormat req).1⟩]

/-- The request for a job. -/
def jobRequest (printer_name : CString) (behind : Bytes) (jobid : Int) (req : PrintReq)
    (document : Bytes) : IppRequest where
  version := [1, 1]
  operation := [0, 2]
  requestId := jobid
  attributes := jobAttributes printer_name behind req
  document := document

def Attribute.bytes (item : Attribute) : Bytes := optionBytes item.tag item.name item.value

def ippBytes (printer_name : CString) (behind : Bytes) (jobid : Int) (req : PrintReq) : Bytes :=
  ippHeader jobid ++ ([TAG_OPERATION_ATTR] ++
    ((jobAttributes printer_name behind req).flatMap Attribute.bytes ++ [TAG_END_OF_ATTR]))

section Lines

variable {line rest : Bytes} {lines : List Bytes}

theorem takeLine_line (noReturn : ∀ byte ∈ line, byte ≠ 13) :
    takeLine (line ++ crlf ++ rest) = some (line, rest) := by
  induction line with
  | nil => rfl
  | cons byte line hypothesis =>
      have first := noReturn byte List.mem_cons_self
      have behind := hypothesis fun other member => noReturn other (List.mem_cons_of_mem _ member)
      rw [List.cons_append, List.cons_append, takeLine]
      · rw [behind]
        rfl
      · intro _ isReturn
        exact absurd isReturn first

theorem takeLines_lines (noReturn : ∀ line ∈ lines, line ≠ [] ∧ ∀ byte ∈ line, byte ≠ 13) {bound : Nat}
    (enough : lines.length < bound) :
    takeLines bound (lines.flatMap (· ++ crlf) ++ crlf ++ rest) = some (lines, rest) := by
  induction lines generalizing bound with
  | nil =>
      cases bound with
      | zero => exact absurd enough (Nat.not_lt_zero _)
      | succ bound => rfl
  | cons line lines hypothesis =>
      cases bound with
      | zero => exact absurd enough (Nat.not_lt_zero _)
      | succ bound =>
          rcases noReturn line List.mem_cons_self with ⟨nonempty, first⟩
          have others := hypothesis (fun other member => noReturn other (List.mem_cons_of_mem _ member))
            (Nat.lt_of_succ_lt_succ enough)
          rw [List.append_assoc] at others
          rw [List.flatMap_cons, List.append_assoc, List.append_assoc, takeLines, takeLine_line first]
          simp only [Option.bind_eq_bind, Option.bind_some]
          rw [if_neg nonempty, others]
          rfl

theorem decimal_noReturn (number : Nat) : ∀ byte ∈ decimal number, byte ≠ 13 := by
  rintro byte member rfl
  exact absurd (decimal_isDigit number 13 member) (by decide)

theorem noReturn_append {front back : Bytes} (noFront : ∀ byte ∈ front, byte ≠ 13)
    (noBack : ∀ byte ∈ back, byte ≠ 13) : ∀ byte ∈ front ++ back, byte ≠ 13 := by
  intro byte member
  rcases List.mem_append.mp member with inFront | inBack
  · exact noFront byte inFront
  · exact noBack byte inBack

theorem httpLines_noReturn {printer_name : CString} (oneLine : ∀ byte ∈ printer_name.1, byte ≠ 13)
    (length : Nat) : ∀ line ∈ httpLines printer_name length, line ≠ [] ∧ ∀ byte ∈ line, byte ≠ 13 := by
  have host : ∀ byte ∈ text "Host: " ++ printer_name.1 ++ text ":" ++ decimal IPP_PORT, byte ≠ 13 :=
    noReturn_append (noReturn_append (noReturn_append (ne_of_all (by decide)) oneLine)
      (ne_of_all (by decide))) (decimal_noReturn IPP_PORT)
  intro line member
  simp only [httpLines, List.mem_cons, List.not_mem_nil, or_false] at member
  rcases member with rfl | rfl | rfl | rfl
  · exact ⟨by decide, ne_of_all (by decide)⟩
  · exact ⟨List.append_ne_nil_of_left_ne_nil (by decide) _,
      noReturn_append (ne_of_all (by decide)) (decimal_noReturn length)⟩
  · exact ⟨by decide, ne_of_all (by decide)⟩
  · refine ⟨?_, host⟩
    rw [List.append_assoc, List.append_assoc]
    exact List.append_ne_nil_of_left_ne_nil (by decide) _

theorem decodeHttp_bytes {printer_name : CString} (oneLine : ∀ byte ∈ printer_name.1, byte ≠ 13)
    (body : Bytes) : decodeHttp (httpBytes printer_name body.length ++ body) =
      some (httpLines printer_name body.length, body) := by
  have bound : (httpLines printer_name body.length).length <
      (httpBytes printer_name body.length ++ body).length := by
    change 4 < _
    simp only [httpBytes, httpLines, List.flatMap_cons, List.length_append, crlf, List.length_cons]
    omega
  rw [decodeHttp, httpBytes] at *
  rw [takeLines_lines (httpLines_noReturn oneLine body.length) bound]
  simp only [Option.bind_eq_bind, Option.bind_some]
  rw [if_pos]
  · rfl
  · exact List.mem_cons_of_mem _ List.mem_cons_self

end Lines

section Ipp

variable {printer_name : CString} {behind : Bytes} {jobid : Int} {req : PrintReq}

theorem decodeGroup_options (options : List IppOption) (document : Bytes) :
    decodeGroup ([TAG_OPERATION_ATTR] ++ ((options.map IppOption.decoded).flatMap Attribute.bytes ++
      ([TAG_END_OF_ATTR] ++ document))) = some (options.map IppOption.decoded, document) := by
  rw [List.flatMap_map, List.singleton_append, decodeGroup, if_pos rfl]
  apply decodeAttributes_bytes
  have several : options.length ≤ (options.flatMap fun option => option.decoded.bytes).length :=
    flatMap_bytes_length options
  simp only [List.length_append, List.length_singleton]
  omega

/-- The attributes are options that IPP can express. -/
theorem jobAttributes_options (short : ShortNames printer_name behind req) :
    ∃ options : List IppOption, options.map IppOption.decoded = jobAttributes printer_name behind req := by
  rcases short with ⟨shortName, shortHeader⟩
  rw [IBUFSZ] at shortHeader
  have uriFits : (printerUri printer_name).length < 65536 := by
    rw [printerUri_length]
    omega
  exact ⟨[⟨TAG_CHARSET, literal "attributes-charset", literal "utf-8", by decide, by decide, by decide⟩,
    ⟨TAG_NATULANG, literal "attributes-natural-language", literal "en-us", by decide, by decide, by decide⟩,
    ⟨TAG_URI, literal "printer-uri", ⟨printerUri printer_name, printerUri_noNul printer_name⟩, by decide,
      by decide, uriFits⟩,
    ⟨TAG_NAMEWOLANG, literal "requesting-user-name", usernm behind req, by decide, by decide, by omega⟩,
    ⟨TAG_NAMEWOLANG, literal "job-name", jobnm behind req, by decide, by decide, by omega⟩,
    ⟨TAG_MIMETYPE, literal "document-format", documentFormat req, by decide, by decide, by omega⟩], rfl⟩

theorem uint32At_ippHeader (rest : Bytes) :
    uint32At (ippHeader jobid ++ rest) 4 = htonl (toUint32 jobid) % 4294967296 := by
  simp only [ippHeader, uint32At, uint32Bytes, List.cons_append, List.getD_cons_zero,
    List.getD_cons_succ, UInt8.toNat_ofNat', List.nil_append]
  omega

/-- The printer reads what the job is. -/
theorem decodeIpp_bytes (short : ShortNames printer_name behind req) (isInt32 : IsInt32 jobid)
    (document : Bytes) : decodeIpp (ippBytes printer_name behind jobid req ++ document) =
      some (jobRequest printer_name behind jobid req document) := by
  rcases jobAttributes_options short with ⟨options, isOptions⟩
  have group := decodeGroup_options options document
  rw [isOptions] at group
  have split : ippBytes printer_name behind jobid req ++ document = ippHeader jobid ++
      ([TAG_OPERATION_ATTR] ++ ((jobAttributes printer_name behind req).flatMap Attribute.bytes ++
        ([TAG_END_OF_ATTR] ++ document))) := by
    simp only [ippBytes, List.append_assoc]
  have eight : (ippHeader jobid).length = 8 := rfl
  rw [decodeIpp, split, ← eight, List.drop_left, group]
  simp only [Option.bind_eq_bind, Option.bind_some]
  rw [uint32At_ippHeader, Submission.ntohl_mod, Submission.answered_jobid isInt32]
  rfl

end Ipp

/-! ## What `printer_thread` puts in its buffers -/

section Written

variable {printer_name : CString} {behind : Bytes} {jobid : Int} {req : PrintReq} {st_size : Int}
  {buffers : Buffers} {uri user job format : CString} {hcp icp : Area}

theorem httpHeader_writes (printer_name : CString) {length : Nat} (small : length < 2 ^ 63) :
    Writes (httpHeader printer_name length) (httpBytes printer_name length) 0 := by
  have covers : ∀ {front back : Bytes}, 1 ≤ back.length + 0 → 1 ≤ (front ++ back).length + 0 := by
    intro front back positive
    rw [List.length_append]
    omega
  have lineEnd : 1 ≤ (text "\r\n").length + 0 := by decide
  have host := (writes_putString (text "Host: " ++ printer_name.1 ++ text ":" ++ decimal IPP_PORT ++
    text "\r\n")).andThen (writes_putBytes (text "\r\n")) lineEnd
  have content := (writes_putString (text "Content-Type: application/ipp\r\n")).andThen host
    (covers lineEnd)
  have sized := (writes_putString (text "Content-Length: " ++
    signedDecimal (Int.bmod length (2 ^ 64)) ++ text "\r\n")).andThen content
      (covers (covers lineEnd))
  have posted := (writes_putString (text "POST /ipp HTTP/1.1\r\n")).andThen sized
    (covers (covers (covers lineEnd)))
  have number : signedDecimal (Int.bmod length (2 ^ 64)) = decimal length := by
    rw [Int.bmod_eq_of_le (by omega) (by omega)]
    rfl
  have texts : text "\r\n" = crlf ∧ text "POST /ipp HTTP/1.1\r\n" = text "POST /ipp HTTP/1.1" ++ crlf ∧
      text "Content-Type: application/ipp\r\n" = text "Content-Type: application/ipp" ++ crlf := by decide
  have same : httpBytes printer_name length = text "POST /ipp HTTP/1.1\r\n" ++ (text "Content-Length: " ++
      signedDecimal (Int.bmod length (2 ^ 64)) ++ text "\r\n" ++ (text "Content-Type: application/ipp\r\n" ++
        (text "Host: " ++ printer_name.1 ++ text ":" ++ decimal IPP_PORT ++ text "\r\n" ++
          text "\r\n"))) := by
    rw [number, texts.1, texts.2.1, texts.2.2]
    simp only [httpBytes, httpLines, List.flatMap_cons, List.flatMap_nil, List.append_assoc,
      List.append_nil]
  rw [same]
  exact posted

theorem ippStart_writes (jobid : Int) : Writes (ippStart jobid) (ippHeader jobid ++
    ([TAG_OPERATION_ATTR] ++ (optionBytes TAG_CHARSET (text "attributes-charset") (text "utf-8") ++
      optionBytes TAG_NATULANG (text "attributes-natural-language") (text "en-us")))) 1 := by
  have options := (writes_addOption TAG_CHARSET (literal "attributes-charset")
    (literal "utf-8")).andThen (writes_addOption TAG_NATULANG
      (literal "attributes-natural-language") (literal "en-us")) one_le_cons
  have operation : int16Bytes (toInt16 (htons OP_PRINT_JOB)) = [0, 2] := int16Bytes_htons OP_PRINT_JOB
  have header := (writes_putBytes [1]).andThen ((writes_putBytes [1]).andThen
    ((writes_putBytes (int16Bytes (toInt16 (htons OP_PRINT_JOB)))).andThen
      ((writes_putBytes (uint32Bytes (htonl (toUint32 jobid)))).andThen
        ((writes_putBytes [TAG_OPERATION_ATTR]).andThen options (Nat.zero_le _)) (Nat.zero_le _))
      (Nat.zero_le _)) (Nat.zero_le _)) (Nat.zero_le _)
  have fields : ∀ rest, ippHeader jobid ++ rest =
      [1] ++ ([1] ++ ([0, 2] ++ (uint32Bytes (htonl (toUint32 jobid)) ++ rest))) := fun _ => rfl
  rw [operation] at header
  rw [fields]
  exact header

theorem ippRest_writes (uri user job format : CString) : Writes (ippRest uri user job format)
    (optionBytes TAG_URI (text "printer-uri") uri.1 ++
      (optionBytes TAG_NAMEWOLANG (text "requesting-user-name") user.1 ++
        (optionBytes TAG_NAMEWOLANG (text "job-name") job.1 ++
          (optionBytes TAG_MIMETYPE (text "document-format") format.1 ++ [TAG_END_OF_ATTR])))) 0 := by
  have last := (writes_addOption TAG_MIMETYPE (literal "document-format") format).andThen
    (writes_putBytes [TAG_END_OF_ATTR]) one_le_cons
  have named := (writes_addOption TAG_NAMEWOLANG (literal "job-name") job).andThen last one_le_cons
  have owned := (writes_addOption TAG_NAMEWOLANG (literal "requesting-user-name") user).andThen
    named one_le_cons
  exact (writes_addOption TAG_URI (literal "printer-uri") uri).andThen owned one_le_cons

theorem take_of_filled {size : Nat} {written : Bytes} {area : Area} (filled : Filled size written area) :
    area.1.take area.2 = written := by
  rcases filled.holds with ⟨rest, whole⟩
  rw [filled.position, ← whole, List.take_left]

/-- Where the headers fit, they are those of the job, and announce the length of all that will
be behind the HTTP header. -/
theorem setUpHeaders_bytes {size : Nat} (small : size < 2 ^ 62)
    (isSet : setUpHeaders printer_name behind jobid req size buffers = some (hcp, icp)) :
    Filled IBUFSZ (ippBytes printer_name behind jobid req) icp ∧ Filled HBUFSZ (httpBytes printer_name
      ((ippBytes printer_name behind jobid req).length + (if isText req then 1 else 0) + size)) hcp := by
  rcases Option.bind_eq_some_iff.mp isSet with ⟨start, isStart, behindStart⟩
  rcases Option.bind_eq_some_iff.mp behindStart with ⟨str, isStr, behindStr⟩
  rcases Option.bind_eq_some_iff.mp behindStr with ⟨last, isRest, behindRest⟩
  rcases Option.bind_eq_some_iff.mp behindRest with ⟨head, isHttp, isPair⟩
  cases isPair
  have uri : (stringAt str.1).1 = printerUri printer_name :=
    cString_putString (printerUri_noNul printer_name) isStr
  have startFilled := Filled.start buffers.ibuf
  have headFilled := Filled.start buffers.hbuf
  rw [buffers.ibufSize] at startFilled
  rw [buffers.hbufSize] at headFilled
  have ended := (ippRest_writes _ _ _ _).filled ((ippStart_writes jobid).filled startFilled isStart) isRest
  have sameBytes : ippBytes printer_name behind jobid req = [] ++ (ippHeader jobid ++
      ([TAG_OPERATION_ATTR] ++ (optionBytes TAG_CHARSET (text "attributes-charset") (text "utf-8") ++
        optionBytes TAG_NATULANG (text "attributes-natural-language") (text "en-us")))) ++
      (optionBytes TAG_URI (text "printer-uri") (printerUri printer_name) ++
        (optionBytes TAG_NAMEWOLANG (text "requesting-user-name") (usernm behind req).1 ++
          (optionBytes TAG_NAMEWOLANG (text "job-name") (jobnm behind req).1 ++
            (optionBytes TAG_MIMETYPE (text "document-format") (documentFormat req).1 ++
              [TAG_END_OF_ATTR])))) := by
    simp only [ippBytes, jobAttributes, List.flatMap_cons, List.flatMap_nil, Attribute.bytes,
      List.append_assoc, List.nil_append]
  rw [uri, ← sameBytes] at ended
  refine ⟨ended, ?_⟩
  have within := ended.holds.length_le
  rw [ended.size, IBUFSZ] at within
  have extra : (if isText req then 1 else 0 : Int) = ((if isText req then 1 else 0 : Nat) : Int) := by
    split
    · rfl
    · rfl
  have total : (ippBytes printer_name behind jobid req).length + (if isText req then 1 else 0) + size < 2 ^ 63 := by
    split
    · omega
    · omega
  have announced : (size : Int) + icp.2 + (if isText req then 1 else 0) =
      ((ippBytes printer_name behind jobid req).length + (if isText req then 1 else 0) + size : Nat) := by
    rw [extra, ended.position]
    omega
  rw [announced] at isHttp
  exact (httpHeader_writes printer_name total).filled headFilled isHttp

end Written

end Apue.Printer.JobHeaders
