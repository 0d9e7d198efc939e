import Apue.Foundation.Buffers
import Apue.Printer.Submission
import Mathlib.Algebra.BigOperators.Group.List.Basic

/-! # The headers of a print job

`printer_thread` of `printer/printd.c` puts an IPP header and an HTTP header in front of the
data of a job. The options of the IPP header are made by `add_option`: a tag, and the name
and the value with their lengths. The numbers in memory are those of a host that stores the
least significant byte first.
-/

namespace Apue.Printer.JobHeaders

open Apue.Foundation Ascii
open Submission (PrintReq PR_TEXT USERNM_MAX JOBNM_MAX htonl toUint32 uint32Bytes)

def IBUFSZ : Nat := 512

def HBUFSZ : Nat := 512

def IPP_PORT : Nat := 631

def OP_PRINT_JOB : Nat := 0x02

def TAG_OPERATION_ATTR : Byte := 0x01

def TAG_END_OF_ATTR : Byte := 0x03

def TAG_NAMEWOLANG : Byte := 0x42

def TAG_URI : Byte := 0x45

def TAG_CHARSET : Byte := 0x47

def TAG_NATULANG : Byte := 0x48

def TAG_MIMETYPE : Byte := 0x49

/-! ## Options -/

/-- The lower two bytes of a number the other way round. -/
def htons (value : Nat) : Nat := value % 256 * 256 + value / 256 % 256

/-- A number as it is stored in an `int16_t`. -/
def toInt16 (value : Nat) : Int := Int.bmod value 65536

/-- The two bytes of an `int16_t` in memory, which the union calls `c`. -/
def int16Bytes (value : Int) : Bytes :=
  [UInt8.ofNat (value % 256).toNat, UInt8.ofNat (value / 256 % 256).toNat]

def addOption (tag : Byte) (optname optval : CString) : Writer := fun cp => do
  let cp ← putBytes [tag] cp
  let n := optname.1.length
  let u := int16Bytes (toInt16 (htons n))
  let cp ← putBytes u cp
  let cp ← putString optname.1 cp
  let n := optval.1.length
  let u := int16Bytes (toInt16 (htons n))
  let cp ← putBytes u cp
  putString optval.1 cp

/-- The two bytes of a length, the more significant one first. -/
def lengthBytes (length : Nat) : Bytes := [UInt8.ofNat (length / 256), UInt8.ofNat length]

def optionBytes (tag : Byte) (optname optval : Bytes) : Bytes :=
  [tag] ++ (lengthBytes optname.length ++ (optname ++ (lengthBytes optval.length ++ optval)))

/-- The sign of the `int16_t` does not matter to its bytes. -/
theorem int16Bytes_toInt16 (low high : Nat) (isLow : low < 256) (isHigh : high < 256) :
    int16Bytes (toInt16 (high * 256 + low)) = [UInt8.ofNat low, UInt8.ofNat high] := by
  have cut : toInt16 (high * 256 + low) = Int.bmod ((high * 256 + low : Nat) : Int) 65536 := rfl
  have first : (toInt16 (high * 256 + low) % 256).toNat = low := by
    rw [cut, Int.bmod_def]
    split
    · omega
    · omega
  have second : (toInt16 (high * 256 + low) / 256 % 256).toNat = high := by
    rw [cut, Int.bmod_def]
    split
    · omega
    · omega
  rw [int16Bytes, first, second]

theorem ofNat_mod (value : Nat) : UInt8.ofNat (value % 256) = UInt8.ofNat value := by
  apply UInt8.toNat_inj.mp
  rw [UInt8.toNat_ofNat', UInt8.toNat_ofNat', Nat.mod_mod]

theorem int16Bytes_htons (value : Nat) :
    int16Bytes (toInt16 (htons value)) = lengthBytes value := by
  have below : ∀ number, number % 256 < 256 := fun _ => Nat.mod_lt _ (by decide)
  rw [htons, int16Bytes_toInt16 _ _ (below _) (below _), ofNat_mod, ofNat_mod, lengthBytes]

theorem optionBytes_length (tag : Byte) (optname optval : Bytes) :
    (optionBytes tag optname optval).length = 5 + optname.length + optval.length := by
  simp only [optionBytes, lengthBytes, List.length_append, List.length_cons, List.length_nil]
  omega

theorem writes_addOption (tag : Byte) (optname optval : CString) :
    Writes (addOption tag optname optval) (optionBytes tag optname.1 optval.1) 1 := by
  have writesLength : ∀ length, Writes (putBytes (int16Bytes (toInt16 (htons length))))
      (lengthBytes length) 0 := by
    intro length
    rw [int16Bytes_htons]
    exact writes_putBytes _
  have value := (writesLength optval.1.length).andThen (writes_putString optval.1) (Nat.zero_le _)
  have name := (writes_putString optname.1).andThen value (by
    rw [lengthBytes, List.length_append]
    omega)
  have sized := (writesLength optname.1.length).andThen name (Nat.zero_le _)
  exact (writes_putBytes [tag]).andThen sized (Nat.zero_le _)

/-- An option that IPP can express. -/
structure IppOption where
  tag : Byte
  optname : CString
  optval : CString
  isValueTag : 0x10 ≤ tag
  nameFits : optname.1.length < 65536
  valueFits : optval.1.length < 65536

/-- One option after the other. -/
def addOptions : List IppOption → Writer
  | [], cp => some cp
  | option :: options, cp => do
      let cp ← addOption option.tag option.optname option.optval cp
      addOptions options cp

/-- The group of the operation attributes. -/
def addAttributes (options : List IppOption) : Writer := fun icp => do
  let icp ← putBytes [TAG_OPERATION_ATTR] icp
  let icp ← addOptions options icp
  putBytes [TAG_END_OF_ATTR] icp

/-! ## Their decoding

The encoding of RFC 2910, read from the front. -/

structure Attribute where
  tag : Byte
  name : Bytes
  value : Bytes
  deriving DecidableEq

/-- A text behind the two bytes of its length. -/
def decodeText : Bytes → Option (Bytes × Bytes)
  | high :: low :: rest =>
      let length := high.toNat * 256 + low.toNat
      if length ≤ rest.length then some (rest.take length, rest.drop length) else none
  | _ => none

def decodeAttribute : Bytes → Option (Attribute × Bytes)
  | [] => none
  | tag :: rest => do
      let (name, rest) ← decodeText rest
      let (value, rest) ← decodeText rest
      return (⟨tag, name, value⟩, rest)

/-- The attributes of a group up to the end tag, with a bound on their number. -/
def decodeAttributes : Nat → Bytes → Option (List Attribute × Bytes)
  | 0, _ => none
  | _, [] => none
  | bound + 1, tag :: rest =>
      if tag = TAG_END_OF_ATTR then some ([], rest)
      else if tag < 0x10 then none
      else do
        let (first, rest) ← decodeAttribute (tag :: rest)
        let (others, rest) ← decodeAttributes bound rest
        return (first :: others, rest)

def decodeGroup : Bytes → Option (List Attribute × Bytes)
  | [] => none
  | tag :: rest => if tag = TAG_OPERATION_ATTR then decodeAttributes rest.length rest else none

def IppOption.decoded (option : IppOption) : Attribute :=
  ⟨option.tag, option.optname.1, option.optval.1⟩

def IppOption.bytes (option : IppOption) : Bytes :=
  optionBytes option.tag option.optname.1 option.optval.1

theorem decodeText_lengthBytes {content : Bytes} (fits : content.length < 65536) (rest : Bytes) :
    decodeText (lengthBytes content.length ++ (content ++ rest)) = some (content, rest) := by
  have isLength : (UInt8.ofNat (content.length / 256)).toNat * 256 +
      (UInt8.ofNat content.length).toNat = content.length := by
    rw [UInt8.toNat_ofNat', UInt8.toNat_ofNat']
    omega
  have enough : content.length ≤ (content ++ rest).length := by
    rw [List.length_append]
    omega
  simp only [lengthBytes, List.cons_append, List.nil_append, decodeText, isLength]
  rw [if_pos enough, List.take_left, List.drop_left]

theorem decodeAttribute_bytes (option : IppOption) (rest : Bytes) :
    decodeAttribute (option.bytes ++ rest) = some (option.decoded, rest) := by
  rw [IppOption.bytes, optionBytes]
  simp only [List.append_assoc, List.cons_append, List.nil_append, decodeAttribute]
  rw [decodeText_lengthBytes option.nameFits]
  simp only [Option.bind_eq_bind, Option.bind_some]
  rw [decodeText_lengthBytes option.valueFits]
  rfl

/-- The bytes of an option start with its tag. -/
theorem IppOption.bytes_cons (option : IppOption) : ∃ rest, option.bytes = option.tag :: rest :=
  ⟨_, rfl⟩

/-- An option has a byte at least. -/
theorem flatMap_bytes_length (options : List IppOption) :
    options.length ≤ (options.flatMap IppOption.bytes).length := by
  rw [List.length_flatMap, ← List.length_map (fun option => option.bytes.length)]
  apply List.length_le_sum_of_one_le
  intro count member
  rcases List.mem_map.mp member with ⟨option, _, rfl⟩
  rw [IppOption.bytes, optionBytes_length]
  omega

theorem decodeAttributes_bytes (options : List IppOption) (rest : Bytes) {bound : Nat}
    (enough : options.length < bound) :
    decodeAttributes bound (options.flatMap IppOption.bytes ++ ([TAG_END_OF_ATTR] ++ rest)) =
      some (options.map IppOption.decoded, rest) := by
  induction options generalizing bound with
  | nil =>
      cases bound with
      | zero => exact absurd enough (Nat.not_lt_zero _)
      | succ bound => rfl
  | cons option options hypothesis =>
      cases bound with
      | zero => exact absurd enough (Nat.not_lt_zero _)
      | succ bound =>
          have decoded := decodeAttribute_bytes option
            (options.flatMap IppOption.bytes ++ ([TAG_END_OF_ATTR] ++ rest))
          have others := hypothesis (Nat.lt_of_succ_lt_succ enough)
          rcases option.bytes_cons with ⟨behind, isCons⟩
          have isValue := option.isValueTag
          have notEnd : option.tag ≠ TAG_END_OF_ATTR := by
            intro isEnd
            rw [isEnd] at isValue
            exact absurd isValue (by decide)
          have notDelimiter : ¬ option.tag < 0x10 := UInt8.not_lt.mpr isValue
          rw [List.flatMap_cons, List.append_assoc]
          rw [isCons, List.cons_append] at decoded ⊢
          rw [decodeAttributes, if_neg notEnd, if_neg notDelimiter, decoded]
          simp only [Option.bind_eq_bind, Option.bind_some]
          rw [others]
          rfl

theorem writes_addOptions (options : List IppOption) :
    Writes (fun icp => addOptions options icp >>= putBytes [TAG_END_OF_ATTR])
      (options.flatMap IppOption.bytes ++ [TAG_END_OF_ATTR]) 0 := by
  induction options with
  | nil => exact writes_putBytes [TAG_END_OF_ATTR]
  | cons option options hypothesis =>
      have writesFirst := writes_addOption option.tag option.optname option.optval
      have both := writesFirst.andThen hypothesis (by
        rw [List.length_append]
        exact Nat.le_add_left _ _)
      have sameWriter : (fun icp => addOptions (option :: options) icp >>= putBytes [TAG_END_OF_ATTR]) =
          fun icp => addOption option.tag option.optname option.optval icp >>=
            fun icp => addOptions options icp >>= putBytes [TAG_END_OF_ATTR] := by
        funext icp
        exact bind_assoc _ _ _
      rw [sameWriter, List.flatMap_cons, List.append_assoc]
      exact both

theorem writes_addAttributes (options : List IppOption) :
    Writes (addAttributes options)
      ([TAG_OPERATION_ATTR] ++ (options.flatMap IppOption.bytes ++ [TAG_END_OF_ATTR])) 0 :=
  (writes_putBytes [TAG_OPERATION_ATTR]).andThen (writes_addOptions options) (Nat.zero_le _)

theorem addOptions_append (front back : List IppOption) (cp : Area) :
    addOptions (front ++ back) cp = addOptions front cp >>= addOptions back := by
  induction front generalizing cp with
  | nil => rfl
  | cons option front hypothesis =>
      have rest : addOptions (front ++ back) = fun cp => addOptions front cp >>= addOptions back :=
        funext hypothesis
      rw [List.cons_append, addOptions, rest]
      exact (bind_assoc _ _ _).symm

theorem addOptions_filled {options : List IppOption} {size : Nat} {written : Bytes} {cp after : Area}
    (filled : Filled size written cp) (added : addOptions options cp = some after) :
    Filled size (written ++ options.flatMap IppOption.bytes) after := by
  induction options generalizing written cp with
  | nil =>
      cases added
      rw [List.flatMap_nil, List.append_nil]
      exact filled
  | cons option options hypothesis =>
      rcases Option.bind_eq_some_iff.mp added with ⟨between, isFirst, isRest⟩
      have behind := hypothesis ((writes_addOption _ _ _).filled filled isFirst) isRest
      rw [List.append_assoc] at behind
      exact behind

/-- What was written for an option is read from where its call started up to where it returned. -/
theorem option_decoded {options front back : List IppOption} {option : IppOption} {size : Nat}
    {written rest : Bytes} {cp after : Area} (split : options = front ++ option :: back)
    (filled : Filled size written cp)
    (holds : Filled size (written ++ (options.flatMap IppOption.bytes ++ rest)) after)
    {last : Area} (added : addOptions options cp = some last) :
    ∃ start stop, addOptions front cp = some start ∧
      addOption option.tag option.optname option.optval start = some stop ∧
      decodeAttribute (after.1.drop start.2) = some (option.decoded, after.1.drop stop.2) := by
  rw [split, addOptions_append] at added
  rcases Option.bind_eq_some_iff.mp added with ⟨start, isStart, behind⟩
  rcases Option.bind_eq_some_iff.mp behind with ⟨stop, isStop, _⟩
  have startFilled := addOptions_filled filled isStart
  have stopFilled := (writes_addOption _ _ _).filled startFilled isStop
  have isOption : optionBytes option.tag option.optname.1 option.optval.1 = option.bytes := rfl
  rw [isOption] at stopFilled
  have regrouped : written ++ (options.flatMap IppOption.bytes ++ rest) =
      (written ++ front.flatMap IppOption.bytes) ++ option.bytes ++
        (back.flatMap IppOption.bytes ++ rest) := by
    rw [split, List.flatMap_append, List.flatMap_cons]
    simp only [List.append_assoc]
  rw [regrouped] at holds
  have here := holds.weaken.drop
  have read := decodeAttribute_bytes option
    (after.1.drop (written ++ front.flatMap IppOption.bytes ++ option.bytes).length)
  refine ⟨start, stop, isStart, isStop, ?_⟩
  rw [startFilled.position, stopFilled.position]
  dsimp only at here
  rw [here]
  exact read

/-- The options come back from the bytes that are written for them, and every call returns the
position behind its own option. -/
theorem addAttributes_decoded (options : List IppOption) {buffer : Bytes} {icp : Nat}
    (room : icp + ((options.flatMap IppOption.bytes).length + 2) ≤ buffer.length) :
    ∃ after, addAttributes options (buffer, icp) = some after ∧
      decodeGroup (after.1.drop icp) = some (options.map IppOption.decoded, after.1.drop after.2) ∧
      ∀ front option back, options = front ++ option :: back → ∃ start stop,
        (putBytes [TAG_OPERATION_ATTR] (buffer, icp) >>= addOptions front) = some start ∧
        addOption option.tag option.optname option.optval start = some stop ∧
        decodeAttribute (after.1.drop start.2) = some (option.decoded, after.1.drop stop.2) := by
  have inside : icp ≤ buffer.length := by omega
  have filled := Filled.middle inside
  have enough : (buffer.take icp).length + ([TAG_OPERATION_ATTR] ++
      (options.flatMap IppOption.bytes ++ [TAG_END_OF_ATTR])).length + 0 ≤ buffer.length := by
    rw [List.length_take_of_le inside, List.length_append, List.length_append, List.length_singleton,
      List.length_singleton]
    omega
  rcases (writes_addAttributes options).stores filled enough with ⟨after, written, holds⟩
  refine ⟨after, written, ?_, ?_⟩
  · have group := holds.drop
    rw [List.length_take_of_le inside, ← holds.position] at group
    rw [group, List.append_assoc, List.singleton_append, decodeGroup, if_pos rfl, List.append_assoc]
    apply decodeAttributes_bytes
    rw [List.length_append, List.length_append, List.length_singleton]
    have several := flatMap_bytes_length options
    omega
  · intro front option back split
    rcases Option.bind_eq_some_iff.mp written with ⟨opened, isOpened, rest⟩
    rcases Option.bind_eq_some_iff.mp rest with ⟨last, added, _⟩
    have openedFilled := (writes_putBytes [TAG_OPERATION_ATTR]).filled filled isOpened
    rw [← List.append_assoc] at holds
    rcases option_decoded split openedFilled holds added with ⟨start, stop, isStart, isStop, read⟩
    refine ⟨start, stop, ?_, isStop, read⟩
    rw [isOpened]
    exact isStart

/-- A name of one letter with an empty value. -/
def shortOption : IppOption where
  tag := TAG_NAMEWOLANG
  optname := ⟨[97], ne_of_all (by decide)⟩
  optval := ⟨[], nofun⟩
  isValueTag := by decide
  nameFits := by decide
  valueFits := by decide

theorem addAttributes_decoded_shortOption :
    ∃ after, addAttributes [shortOption] ([0, 0, 0, 0, 0, 0, 0, 0, 0, 0], 1) = some after ∧
      decodeGroup (after.1.drop 1) = some ([shortOption.decoded], after.1.drop after.2) := by
  rcases @addAttributes_decoded [shortOption] [0, 0, 0, 0, 0, 0, 0, 0, 0, 0] 1 (by decide) with
    ⟨after, added, decoded, _⟩
  exact ⟨after, added, decoded⟩

/-! ## The headers of a job -/

/-- The buffers of `printer_thread`, with what they hold from the last job. -/
structure Buffers where
  str : Bytes
  ibuf : Bytes
  hbuf : Bytes
  strSize : str.length = 64
  ibufSize : ibuf.length = IBUFSZ
  hbufSize : hbuf.length = HBUFSZ

/-- The string that starts at an address, where `memory` is what is there. -/
def stringAt (memory : Bytes) : CString := ⟨cString memory, cString_noNul memory⟩

abbrev literal (string : String) (noNul : (text string).all (· != 0) = true := by decide) : CString :=
  ⟨text string, ne_of_all noNul⟩

/-- The fields of `struct ipp_hdr` lie behind one another, and the first options follow. -/
def ippStart (jobid : Int) : Writer := fun icp => do
  let icp ← putBytes [1] icp
  let icp ← putBytes [1] icp
  let icp ← putBytes (int16Bytes (toInt16 (htons OP_PRINT_JOB))) icp
  let icp ← putBytes (uint32Bytes (htonl (toUint32 jobid))) icp
  let icp ← putBytes [TAG_OPERATION_ATTR] icp
  let icp ← addOption TAG_CHARSET (literal "attributes-charset") (literal "utf-8") icp
  addOption TAG_NATULANG (literal "attributes-natural-language") (literal "en-us") icp

def ippRest (str usernm jobnm p : CString) : Writer := fun icp => do
  let icp ← addOption TAG_URI (literal "printer-uri") str icp
  let icp ← addOption TAG_NAMEWOLANG (literal "requesting-user-name") usernm icp
  let icp ← addOption TAG_NAMEWOLANG (literal "job-name") jobnm icp
  let icp ← addOption TAG_MIMETYPE (literal "document-format") p icp
  putBytes [TAG_END_OF_ATTR] icp

def printerUri (printer_name : CString) : Bytes := text "http://" ++ printer_name.1 ++ text "/ipp"

/-- The length is a `long`. -/
def httpHeader (printer_name : CString) (length : Int) : Writer := fun hcp => do
  let hcp ← putString (text "POST /ipp HTTP/1.1\r\n") hcp
  let hcp ← putString (text "Content-Length: " ++ signedDecimal (Int.bmod length (2 ^ 64)) ++
    text "\r\n") hcp
  let hcp ← putString (text "Content-Type: application/ipp\r\n") hcp
  let hcp ← putString (text "Host: " ++ printer_name.1 ++ text ":" ++ decimal IPP_PORT ++
    text "\r\n") hcp
  putBytes (text "\r\n") hcp

def isText (req : PrintReq) : Bool := req.flags &&& PR_TEXT != 0

/-- `document-format` -/
def documentFormat (req : PrintReq) : CString :=
  if isText req then literal "text/plain"
  else literal "application/postscript"

section PrinterThread

-- `behind` is the memory behind the request, which a name without a NUL byte runs into.
variable (printer_name : CString) (behind : Bytes) (jobid : Int) (req : PrintReq) (st_size : Int)

def usernm : CString := stringAt (req.usernm ++ req.jobnm ++ behind)

def jobnm : CString := stringAt (req.jobnm ++ behind)

/-- The part of `printer_thread` that sets up the HTTP header and the IPP header. -/
def setUpHeaders (buffers : Buffers) : Option (Area × Area) := do
  let icp ← ippStart jobid (buffers.ibuf, 0)
  let (str, _) ← putString (printerUri printer_name) (buffers.str, 0)
  let icp ← ippRest (stringAt str) (usernm behind req) (jobnm behind req) (documentFormat req) icp
  let ilen := icp.2
  let extra : Int := if isText req then 1 else 0
  let hcp ← httpHeader printer_name (st_size + ilen + extra) (buffers.hbuf, 0)
  return (hcp, icp)

end PrinterThread

/-- Everything that is built for the job stays within its buffer. -/
def HeadersFit (printer_name : CString) (behind : Bytes) (jobid : Int) (req : PrintReq)
    (st_size : Int) (buffers : Buffers) : Prop :=
  (setUpHeaders printer_name behind jobid req st_size buffers).isSome = true

section Lengths

variable {printer_name uri user job format : CString} {length : Int}

theorem signedDecimal_length (number : Int) :
    (signedDecimal (Int.bmod number (2 ^ 64))).length ≤ 20 := by
  have low : -(2 ^ 63) ≤ Int.bmod number (2 ^ 64) := by
    have bound := @Int.le_bmod number (2 ^ 64) (by decide)
    omega
  have high : Int.bmod number (2 ^ 64) < 2 ^ 63 := by
    have bound := @Int.bmod_lt number (2 ^ 64) (by decide)
    omega
  have digits : (decimal (Int.bmod number (2 ^ 64)).natAbs).length ≤ 19 :=
    (decimal_length_le_iff (by decide)).mpr (by omega)
  rw [signedDecimal]
  split
  · rw [List.length_cons]
    omega
  · omega

/-- What follows begins with a byte that overwrites the NUL byte. -/
theorem one_le_cons {first : Byte} {rest : Bytes} {slack : Nat} :
    1 ≤ (first :: rest).length + slack := by
  rw [List.length_cons]
  omega

theorem writes_ippStart (jobid : Int) : ∃ bytes, Writes (ippStart jobid) bytes 1 ∧ bytes.length = 74 := by
  have options := (writes_addOption TAG_CHARSET (literal "attributes-charset")
    (literal "utf-8")).andThen (writes_addOption TAG_NATULANG
      (literal "attributes-natural-language") (literal "en-us")) one_le_cons
  have header := (writes_putBytes [1]).andThen ((writes_putBytes [1]).andThen
    ((writes_putBytes (int16Bytes (toInt16 (htons OP_PRINT_JOB)))).andThen
      ((writes_putBytes (uint32Bytes (htonl (toUint32 jobid)))).andThen
        ((writes_putBytes [TAG_OPERATION_ATTR]).andThen options (Nat.zero_le _)) (Nat.zero_le _))
      (Nat.zero_le _)) (Nat.zero_le _)) (Nat.zero_le _)
  refine ⟨_, header, ?_⟩
  simp only [List.length_append, optionBytes_length]
  rfl

theorem writes_ippRest : ∃ bytes, Writes (ippRest uri user job format) bytes 0 ∧
    bytes.length = 75 + uri.1.length + user.1.length + job.1.length + format.1.length := by
  have last := (writes_addOption TAG_MIMETYPE (literal "document-format") format).andThen
    (writes_putBytes [TAG_END_OF_ATTR]) one_le_cons
  have named := (writes_addOption TAG_NAMEWOLANG (literal "job-name") job).andThen last one_le_cons
  have owned := (writes_addOption TAG_NAMEWOLANG (literal "requesting-user-name") user).andThen
    named one_le_cons
  refine ⟨_, (writes_addOption TAG_URI (literal "printer-uri") uri).andThen owned one_le_cons, ?_⟩
  have names : (text "printer-uri").length = 11 ∧ (text "requesting-user-name").length = 20 ∧
      (text "job-name").length = 8 ∧ (text "document-format").length = 15 := by decide
  simp only [List.length_append, optionBytes_length, names, List.length_singleton]
  omega

theorem writes_httpHeader (printer_name : CString) (length : Int) :
    ∃ bytes, Writes (httpHeader printer_name length) bytes 0 ∧
      bytes.length = 83 + (signedDecimal (Int.bmod length (2 ^ 64))).length +
        printer_name.1.length := by
  have covers : ∀ {front back : Bytes}, 1 ≤ back.length + 0 → 1 ≤ (front ++ back).length + 0 := by
    intro front back positive
    rw [List.length_append]
    omega
  have lineEnd : 1 ≤ (text "\r\n").length + 0 := by decide
  have host := (writes_putString (text "Host: " ++ printer_name.1 ++ text ":" ++ decimal IPP_PORT ++
    text "\r\n")).andThen (writes_putBytes (text "\r\n")) lineEnd
  have content := (writes_putString (text "Content-Type: application/ipp\r\n")).andThen host
    (covers lineEnd)
  have sized := (writes_putString (text "Content-Length: " ++
    signedDecimal (Int.bmod length (2 ^ 64)) ++ text "\r\n")).andThen content
      (covers (covers lineEnd))
  have posted := (writes_putString (text "POST /ipp HTTP/1.1\r\n")).andThen sized
    (covers (covers (covers lineEnd)))
  refine ⟨_, posted, ?_⟩
  have texts : (text "POST /ipp HTTP/1.1\r\n").length = 20 ∧ (text "Content-Length: ").length = 16 ∧
      (text "Content-Type: application/ipp\r\n").length = 31 ∧ (text "Host: ").length = 6 ∧
      (text ":").length = 1 ∧ (text "\r\n").length = 2 := by decide
  have port : (decimal IPP_PORT).length = 3 := by
    simp [decimal, IPP_PORT]
  simp only [List.length_append, texts, port]
  omega

theorem printerUri_length (printer_name : CString) :
    (printerUri printer_name).length = 11 + printer_name.1.length := by
  have texts : (text "http://").length = 7 ∧ (text "/ipp").length = 4 := by decide
  simp only [printerUri, List.length_append, texts]
  omega

theorem printerUri_noNul (printer_name : CString) : ∀ byte ∈ printerUri printer_name, byte ≠ 0 := by
  have front : ∀ byte ∈ text "http://", byte ≠ 0 := ne_of_all (by decide)
  have back : ∀ byte ∈ text "/ipp", byte ≠ 0 := ne_of_all (by decide)
  intro byte member
  rcases List.mem_append.mp member with inside | isBack
  · rcases List.mem_append.mp inside with isFront | isName
    · exact front byte isFront
    · exact printer_name.2 byte isName
  · exact back byte isBack

end Lengths

section Fits

variable {printer_name : CString} {behind : Bytes} {jobid : Int} {req : PrintReq} {st_size : Int}
  {buffers : Buffers}

/-- The room that the headers of a job take. -/
def ShortNames (printer_name : CString) (behind : Bytes) (req : PrintReq) : Prop :=
  printer_name.1.length ≤ 52 ∧
    160 + printer_name.1.length + (usernm behind req).1.length + (jobnm behind req).1.length +
      (documentFormat req).1.length ≤ IBUFSZ

theorem headersFit_of_short (short : ShortNames printer_name behind req) :
    HeadersFit printer_name behind jobid req st_size buffers := by
  rcases short with ⟨shortName, shortHeader⟩
  have ibufSize := buffers.ibufSize
  have startFilled := Filled.start buffers.ibuf
  rw [buffers.ibufSize] at startFilled
  rcases writes_ippStart jobid with ⟨startBytes, writesStart, startLength⟩
  rcases writesStart.stores startFilled (by rw [startLength]; decide) with ⟨icp, isStart, started⟩
  have strFilled := Filled.start buffers.str
  rw [buffers.strSize] at strFilled
  have strRoom : ([] : Bytes).length + (printerUri printer_name).length + 1 ≤ 64 := by
    rw [printerUri_length, List.length_nil]
    omega
  rcases (writes_putString (printerUri printer_name)).stores strFilled strRoom with ⟨str, isStr, _⟩
  have uri : (stringAt str.1).1 = printerUri printer_name :=
    cString_putString (printerUri_noNul printer_name) isStr
  rcases @writes_ippRest (stringAt str.1) (usernm behind req) (jobnm behind req) (documentFormat req)
    with ⟨restBytes, writesRest, restLength⟩
  have restRoom : ([] ++ startBytes).length + restBytes.length + 0 ≤ IBUFSZ := by
    rw [restLength, uri, printerUri_length, List.nil_append, startLength]
    omega
  rcases writesRest.stores started restRoom with ⟨last, isRest, _⟩
  have hbufFilled := Filled.start buffers.hbuf
  rw [buffers.hbufSize] at hbufFilled
  rcases writes_httpHeader printer_name (st_size + last.2 + if isText req then 1 else 0) with
    ⟨httpBytes, writesHttp, httpLength⟩
  have httpRoom : ([] : Bytes).length + httpBytes.length + 0 ≤ HBUFSZ := by
    have digits := signedDecimal_length (st_size + last.2 + if isText req then 1 else 0)
    rw [httpLength, List.length_nil, HBUFSZ]
    omega
  rcases writesHttp.stores hbufFilled httpRoom with ⟨hcp, isHttp, _⟩
  refine Option.isSome_iff_exists.mpr ⟨(hcp, last), ?_⟩
  rw [setUpHeaders, isStart]
  simp only [Option.bind_eq_bind, Option.bind_some]
  rw [isStr]
  simp only [Option.bind_some]
  rw [isRest]
  simp only [Option.bind_some]
  rw [isHttp]
  rfl

theorem short_of_headersFit (fit : HeadersFit printer_name behind jobid req st_size buffers) :
    ShortNames printer_name behind req := by
  rcases Option.isSome_iff_exists.mp fit with ⟨headers, isSet⟩
  rcases Option.bind_eq_some_iff.mp isSet with ⟨icp, isStart, behindStart⟩
  rcases Option.bind_eq_some_iff.mp behindStart with ⟨str, isStr, behindStr⟩
  rcases Option.bind_eq_some_iff.mp behindStr with ⟨last, isRest, _⟩
  have startFilled := Filled.start buffers.ibuf
  have strFilled := Filled.start buffers.str
  rw [buffers.ibufSize] at startFilled
  rw [buffers.strSize] at strFilled
  rcases writes_ippStart jobid with ⟨startBytes, writesStart, startLength⟩
  have started := writesStart.filled startFilled isStart
  have uri : (stringAt str.1).1 = printerUri printer_name :=
    cString_putString (printerUri_noNul printer_name) isStr
  have strWithin := (writes_putString (printerUri printer_name)).within strFilled
    (Option.isSome_iff_exists.mpr ⟨str, isStr⟩)
  rcases @writes_ippRest (stringAt str.1) (usernm behind req) (jobnm behind req) (documentFormat req)
    with ⟨restBytes, writesRest, restLength⟩
  have restWithin := writesRest.within started (Option.isSome_iff_exists.mpr ⟨last, isRest⟩)
  rw [restLength, uri, printerUri_length, List.nil_append, startLength] at restWithin
  rw [printerUri_length, List.length_nil] at strWithin
  constructor
  · omega
  · omega

/-- The buffers of `printer_thread` are large enough if and only if the name of the printer and
the names in the request are short. -/
theorem headersFit_iff (printer_name : CString) (behind : Bytes) (jobid : Int) (req : PrintReq)
    (st_size : Int) (buffers : Buffers) :
    HeadersFit printer_name behind jobid req st_size buffers ↔
      ShortNames printer_name behind req :=
  ⟨short_of_headersFit, headersFit_of_short⟩

end Fits

/-- A PostScript job with the longest names that the client sends. -/
def longestNames : PrintReq where
  size := 0
  flags := 0
  usernm := List.replicate 63 97 ++ [0]
  jobnm := List.replicate 255 98 ++ [0]
  usernmSize := by
    rw [List.length_append, List.length_replicate]
    rfl
  jobnmSize := by
    rw [List.length_append, List.length_replicate]
    rfl

def zeroBuffers : Buffers where
  str := List.replicate 64 0
  ibuf := List.replicate IBUFSZ 0
  hbuf := List.replicate HBUFSZ 0
  strSize := List.length_replicate
  ibufSize := List.length_replicate
  hbufSize := List.length_replicate

theorem longestNames_usernm : (usernm [] longestNames).1 = List.replicate 63 97 := by
  have noNul : ∀ byte ∈ List.replicate 63 (97 : Byte), byte ≠ 0 := by
    intro byte member
    rw [List.eq_of_mem_replicate member]
    decide
  change cString (List.replicate 63 97 ++ [0] ++ longestNames.jobnm ++ []) = _
  rw [List.append_assoc, List.append_assoc, List.singleton_append]
  exact cString_append noNul

theorem longestNames_jobnm : (jobnm [] longestNames).1 = List.replicate 255 98 := by
  have noNul : ∀ byte ∈ List.replicate 255 (98 : Byte), byte ≠ 0 := by
    intro byte member
    rw [List.eq_of_mem_replicate member]
    decide
  change cString (List.replicate 255 98 ++ [0] ++ []) = _
  rw [List.append_assoc, List.singleton_append]
  exact cString_append noNul

theorem not_headersFit_longestNames :
    ¬ HeadersFit (literal "printer1.example.org") [] 1 longestNames 0 zeroBuffers := by
  intro fit
  have room := (short_of_headersFit fit).2
  have names : (text "printer1.example.org").length = 20 ∧
      (documentFormat longestNames).1.length = 22 := by decide
  rw [longestNames_usernm, longestNames_jobnm, List.length_replicate, List.length_replicate, names.1,
    names.2, IBUFSZ] at room
  omega

end Apue.Printer.JobHeaders
