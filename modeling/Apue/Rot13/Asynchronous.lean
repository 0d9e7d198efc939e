import Apue.Rot13.Completions

/-! # The asynchronous filter

Each buffer under way holds one block of the input. Completions change what the
kernel keeps for a buffer and its block, and nothing else.
-/

namespace Apue.Rot13

open Apue.Foundation

theorem getElem?_pwrite {file text : Bytes} {offset index : Nat} :
    (pwrite file offset text)[index]? =
      if offset ≤ index ∧ index < offset + text.length then text[index - offset]?
      else if file.length ≤ index ∧ index < offset then some 0
      else file[index]? := by
  have front : (file.take offset ++ List.replicate (offset - file.length) (0 : Byte)).length =
      offset := by
    rw [List.length_append, List.length_take, List.length_replicate]
    omega
  rw [pwrite, List.append_assoc, List.getElem?_append, front]
  by_cases before : index < offset
  · rw [if_pos before, if_neg (by omega), List.getElem?_append, List.length_take]
    by_cases inside : index < file.length
    · rw [if_pos (by omega), if_neg (by omega), List.getElem?_take_of_lt before]
    · rw [if_neg (by omega), if_pos (by omega), List.getElem?_replicate, if_pos (by omega)]
  · rw [if_neg before, List.getElem?_append]
    by_cases inside : index < offset + text.length
    · rw [if_pos (by omega), if_pos (by omega)]
    · rw [if_neg (by omega), if_neg (by omega), if_neg (by omega), List.getElem?_drop]
      congr 1
      omega

theorem length_pwrite {file text : Bytes} {offset : Nat} :
    (pwrite file offset text).length = max file.length (offset + text.length) := by
  rw [pwrite, List.length_append, List.length_append, List.length_append, List.length_take,
    List.length_replicate, List.length_drop]
  omega

namespace Rot13c2

/-- What a buffer is used for. Between the return of a read and the start of the
write its block is in memory only. -/
inductive Stage
  | idle
  | reading (block : Nat)
  | filled (block : Nat)
  | translated (block : Nat)
  | writing (block : Nat)

def Stage.block : Stage → Option Nat
  | .idle => none
  | .reading block | .filled block | .translated block | .writing block => some block

section

variable (ifd ofd : String) (input : Bytes)

def blockAt (block : Nat) : Bytes := pread input (block * BSZ) BSZ

/-- A block of the output is right. -/
def Written (block : Nat) (system : System) : Prop :=
  ∀ index, index / BSZ = block → index < input.length →
    ((system.files ofd).getD [])[index]? = (input.map translate)[index]?

structure Finished (block : Nat) (system : System) : Prop where
  read : system.made .read (block * BSZ) = 1
  write : system.made .write (block * BSZ) = 1
  written : Written ofd input block system

def Holds (i : Buffer) (block : Nat) (text : Bytes) (system : System) : Prop :=
  system.made .read (block * BSZ) = 1 ∧ (system.data i).take (blockAt input block).length = text

/-- What the kernel keeps for a buffer. -/
def Held (i : Buffer) (system : System) : Stage → Prop
  | .idle => system.requests i = none
  | .reading block =>
      ∃ result, system.requests i = some ⟨.read, ⟨ifd, block * BSZ, BSZ⟩, result⟩ ∧
        system.made .write (block * BSZ) = 0 ∧
        match result with
        | none => system.made .read (block * BSZ) = 0
        | some n => n = (blockAt input block).length ∧ Holds input i block (blockAt input block) system
  | .filled block => system.requests i = none ∧ system.made .write (block * BSZ) = 0 ∧
      Holds input i block (blockAt input block) system
  | .translated block => system.requests i = none ∧ system.made .write (block * BSZ) = 0 ∧
      Holds input i block ((blockAt input block).map translate) system
  | .writing block =>
      ∃ result, system.requests i =
          some ⟨.write, ⟨ofd, block * BSZ, (blockAt input block).length⟩, result⟩ ∧
        match result with
        | none => system.made .write (block * BSZ) = 0 ∧
            Holds input i block ((blockAt input block).map translate) system
        | some n => n = (blockAt input block).length ∧ Finished ofd input block system

/-- The buffers, and the blocks that were started. -/
structure Valid (stages : Buffer → Stage) (started : Nat) (system : System) : Prop where
  source : system.files ifd = some input
  target : ∃ output, system.files ofd = some output ∧ output.length ≤ input.length
  inside : started * BSZ < input.length + BSZ
  held : ∀ i, Held ifd ofd input i system (stages i)
  range : ∀ i block, (stages i).block = some block → block < started
  apart : ∀ i j block, (stages i).block = some block → (stages j).block = some block → i = j
  finished : ∀ block < started, (∀ i, (stages i).block ≠ some block) →
    Finished ofd input block system
  untouched : ∀ offset, offset % BSZ ≠ 0 ∨ started * BSZ ≤ offset →
    ∀ opcode, system.made opcode offset = 0

/-- A step has left a block alone. -/
structure Agrees (block : Nat) (before after : System) : Prop where
  made : ∀ opcode, after.made opcode (block * BSZ) = before.made opcode (block * BSZ)
  written : Written ofd input block before → Written ofd input block after

end

section Changes

variable {ifd ofd : String} {input : Bytes} {stages : Buffer → Stage} {started block : Nat}
  {before after : System} {i : Buffer} {stage : Stage}

theorem Agrees.same (files : after.files = before.files) (made : after.made = before.made) :
    Agrees ofd input block before after where
  made := fun _ => by rw [made]
  written := fun written => by
    intro index isBlock inside
    rw [files]
    exact written index isBlock inside

theorem Finished.agrees (agrees : Agrees ofd input block before after)
    (finished : Finished ofd input block before) : Finished ofd input block after where
  read := (agrees.made .read).trans finished.read
  write := (agrees.made .write).trans finished.write
  written := agrees.written finished.written

theorem Held.agrees (requests : after.requests i = before.requests i)
    (data : after.data i = before.data i)
    (agrees : ∀ block, stage.block = some block → Agrees ofd input block before after)
    (held : Held ifd ofd input i before stage) : Held ifd ofd input i after stage := by
  cases stage with
  | idle => exact requests.trans held
  | reading block =>
      have agrees := agrees block rfl
      rcases held with ⟨result, isRequest, unwritten, kept⟩
      refine ⟨result, requests.trans isRequest, (agrees.made .write).trans unwritten, ?_⟩
      cases result with
      | none => exact (agrees.made .read).trans kept
      | some n => exact ⟨kept.1, (agrees.made .read).trans kept.2.1, by rw [data]; exact kept.2.2⟩
  | filled block | translated block =>
      have agrees := agrees block rfl
      rcases held with ⟨isRequest, unwritten, read, kept⟩
      exact ⟨requests.trans isRequest, (agrees.made .write).trans unwritten,
        (agrees.made .read).trans read, by rw [data]; exact kept⟩
  | writing block =>
      have agrees := agrees block rfl
      rcases held with ⟨result, isRequest, kept⟩
      refine ⟨result, requests.trans isRequest, ?_⟩
      cases result with
      | none =>
          exact ⟨(agrees.made .write).trans kept.1, (agrees.made .read).trans kept.2.1,
            by rw [data]; exact kept.2.2⟩
      | some n => exact ⟨kept.1, kept.2.agrees agrees⟩

/-- A step that concerns one buffer and its block. -/
theorem Valid.change (valid : Valid ifd ofd input stages started before)
    (requests : ∀ j, j ≠ i → after.requests j = before.requests j)
    (data : ∀ j, j ≠ i → after.data j = before.data j)
    (agrees : ∀ other, (stages i).block ≠ some other → Agrees ofd input other before after)
    (made : ∀ offset, offset % BSZ ≠ 0 → ∀ opcode, after.made opcode offset = before.made opcode offset)
    (source : after.files ifd = before.files ifd)
    (target : ∃ output, after.files ofd = some output ∧ output.length ≤ input.length)
    (held : Held ifd ofd input i after stage)
    (ends : stage.block = (stages i).block ∨
      stage.block = none ∧ ∀ block, (stages i).block = some block → Finished ofd input block after) :
    Valid ifd ofd input (Function.update stages i stage) started after := by
  -- No buffer holds a block that it did not hold before.
  have holder : ∀ j block, (Function.update stages i stage j).block = some block →
      (stages j).block = some block := by
    intro j block isBlock
    by_cases same : j = i
    · subst same
      rw [Function.update_self] at isBlock
      rcases ends with kept | ⟨none, _⟩
      · rw [← kept, isBlock]
      · rw [none] at isBlock
        cases isBlock
    · rw [Function.update_of_ne same] at isBlock
      exact isBlock
  constructor
  · exact source.trans valid.source
  · exact target
  · exact valid.inside
  · intro j
    by_cases same : j = i
    · subst same
      rw [Function.update_self]
      exact held
    · rw [Function.update_of_ne same]
      apply (valid.held j).agrees (requests j same) (data j same)
      intro block isBlock
      exact agrees block fun other => same (valid.apart j i block isBlock other)
  · exact fun j block isBlock => valid.range j block (holder j block isBlock)
  · exact fun j k block left right =>
      valid.apart j k block (holder j block left) (holder k block right)
  · intro block isStarted nobody
    by_cases mine : (stages i).block = some block
    · rcases ends with kept | ⟨_, finished⟩
      · have notMine := nobody i
        rw [Function.update_self, kept] at notMine
        exact absurd mine notMine
      · exact finished block mine
    · apply (valid.finished block isStarted _).agrees (agrees block mine)
      intro j isBlock
      by_cases same : j = i
      · subst same
        exact mine isBlock
      · have notMine := nobody j
        rw [Function.update_of_ne same] at notMine
        exact notMine isBlock
  · intro offset out opcode
    by_cases multiple : offset % BSZ = 0
    · have late : started * BSZ ≤ offset := out.resolve_left fun different => different multiple
      have isOffset : offset / BSZ * BSZ = offset := Nat.div_mul_cancel (Nat.dvd_of_mod_eq_zero multiple)
      have other : (stages i).block ≠ some (offset / BSZ) := by
        intro isBlock
        have range := valid.range i _ isBlock
        have below : started ≤ offset / BSZ := (Nat.le_div_iff_mul_le (by decide)).mpr late
        omega
      have same := (agrees _ other).made opcode
      rw [isOffset] at same
      exact same.trans (valid.untouched offset out opcode)
    · exact (made offset multiple opcode).trans (valid.untouched offset out opcode)

end Changes

/-! ## Completions -/

section Complete

variable {ifd ofd : String} {input : Bytes} {stages : Buffer → Stage} {started block : Nat}
  {before after system : System} {i : Buffer}

theorem length_blockAt : (blockAt input block).length = min BSZ (input.length - block * BSZ) := by
  rw [blockAt, pread, List.length_take, List.length_drop]

theorem complete_request {request : Request} {text : Bytes}
    (isRequest : system.requests i = some request) (pending : request.result = none)
    (isText : system.files request.aiocb.aio_fildes = some text) :
    complete i system = some (match request.opcode with
      | .read =>
          let bytes := pread text request.aiocb.aio_offset request.aiocb.aio_nbytes
          ((system.count .read request.aiocb.aio_offset).setData i
            (pwrite (system.data i) 0 bytes)).setRequest i
            (some { request with result := some bytes.length })
      | .write =>
          let bytes := (system.data i).take request.aiocb.aio_nbytes
          ((system.count .write request.aiocb.aio_offset).setFile request.aiocb.aio_fildes
            (pwrite text request.aiocb.aio_offset bytes)).setRequest i
            (some { request with result := some bytes.length })) := by
  have goesOn : ¬ request.result ≠ none := Classical.not_not.mpr pending
  rw [complete, isRequest, Option.bind_eq_bind, Option.bind_some, if_neg goesOn]
  dsimp only
  rw [isText]
  rcases request with ⟨opcode, aiocb, result⟩
  cases opcode <;> rfl

theorem count_self {opcode : Opcode} {offset : Nat} :
    (system.count opcode offset).made opcode offset = system.made opcode offset + 1 := by
  simp only [System.count, Function.update_self]

theorem count_other {opcode other : Opcode} {offset otherOffset : Nat}
    (different : other ≠ opcode ∨ otherOffset ≠ offset) :
    (system.count opcode offset).made other otherOffset = system.made other otherOffset := by
  by_cases same : other = opcode
  · subst same
    have apart := different.resolve_left fun ne => ne rfl
    simp only [System.count, Function.update_self, Function.update_of_ne apart]
  · simp only [System.count, Function.update_of_ne same]

theorem write_ne_read : Opcode.write ≠ Opcode.read := nofun

theorem take_pwrite_zero (file text : Bytes) : (pwrite file 0 text).take text.length = text := by
  rw [pwrite, List.take_zero, Nat.zero_sub, List.replicate_zero, List.nil_append, List.nil_append,
    List.take_left]

theorem mul_BSZ_ne {other : Nat} (different : other ≠ block) : other * BSZ ≠ block * BSZ :=
  fun same => different (Nat.eq_of_mul_eq_mul_right (by decide) same)

/-- What a write of the right text does to the output. -/
theorem written_pwrite {output : Bytes} (index : Nat) (inside : index < input.length) :
    (index / BSZ = block →
      (pwrite output (block * BSZ) ((blockAt input block).map translate))[index]? =
        (input.map translate)[index]?) ∧
    (index / BSZ ≠ block → output[index]? = (input.map translate)[index]? →
      (pwrite output (block * BSZ) ((blockAt input block).map translate))[index]? =
        (input.map translate)[index]?) := by
  rw [getElem?_pwrite, List.length_map, length_blockAt]
  constructor
  · intro isBlock
    have low : block * BSZ ≤ index := isBlock ▸ Nat.div_mul_le_self index BSZ
    have high : index < block * BSZ + BSZ := by
      have below := Nat.lt_mul_div_succ index (show 0 < BSZ by decide)
      rw [isBlock, Nat.mul_comm, Nat.add_mul, Nat.one_mul] at below
      exact below
    rw [if_pos (by omega), List.getElem?_map, List.getElem?_map, blockAt, pread,
      List.getElem?_take_of_lt (by omega), List.getElem?_drop]
    congr 2
    omega
  · intro otherBlock right
    have present : index < output.length := by
      by_contra beyond
      rw [List.getElem?_eq_none (by omega), List.getElem?_eq_getElem
        (by rw [List.length_map]; exact inside)] at right
      cases right
    have outside : ¬ (block * BSZ ≤ index ∧
        index < block * BSZ + min BSZ (input.length - block * BSZ)) := by
      rintro ⟨low, high⟩
      apply otherBlock
      apply Nat.div_eq_of_lt_le
      · exact low
      · rw [Nat.add_mul, Nat.one_mul]
        omega
    rw [if_neg outside, if_neg (by omega)]
    exact right

/-- A completed read fills its buffer. -/
theorem Held.complete_read (source : before.files ifd = some input)
    (isRequest : before.requests i = some ⟨.read, ⟨ifd, block * BSZ, BSZ⟩, none⟩)
    (unread : before.made .read (block * BSZ) = 0)
    (unwritten : before.made .write (block * BSZ) = 0)
    (completed : complete i before = some after) :
    after = ((before.count .read (block * BSZ)).setData i
        (pwrite (before.data i) 0 (blockAt input block))).setRequest i
        (some ⟨.read, ⟨ifd, block * BSZ, BSZ⟩, some (blockAt input block).length⟩) ∧
      Held ifd ofd input i after (.reading block) := by
  rw [complete_request isRequest rfl source] at completed
  cases completed
  refine ⟨rfl, some (blockAt input block).length, Function.update_self _ _ _, ?_, rfl, ?_, ?_⟩
  · exact (@count_other before .read .write (block * BSZ) _ (Or.inl write_ne_read)).trans unwritten
  · exact (@count_self before .read (block * BSZ)).trans (by rw [unread])
  · have isData : ((before.count .read (block * BSZ)).setData i
        (pwrite (before.data i) 0 (blockAt input block))).data i =
          pwrite (before.data i) 0 (blockAt input block) := Function.update_self _ _ _
    exact (congrArg (List.take (blockAt input block).length) isData).trans (take_pwrite_zero _ _)

/-- A completed write finishes the block of its buffer. -/
theorem Held.complete_write {output : Bytes} (target : before.files ofd = some output)
    (isRequest : before.requests i =
      some ⟨.write, ⟨ofd, block * BSZ, (blockAt input block).length⟩, none⟩)
    (read : before.made .read (block * BSZ) = 1)
    (unwritten : before.made .write (block * BSZ) = 0)
    (filled : (before.data i).take (blockAt input block).length =
      (blockAt input block).map translate)
    (right : ∀ index, index / BSZ = block → index < input.length →
      (pwrite output (block * BSZ) ((blockAt input block).map translate))[index]? =
        (input.map translate)[index]?)
    (completed : complete i before = some after) :
    after = ((before.count .write (block * BSZ)).setFile ofd
        (pwrite output (block * BSZ) ((blockAt input block).map translate))).setRequest i
        (some ⟨.write, ⟨ofd, block * BSZ, (blockAt input block).length⟩,
          some (blockAt input block).length⟩) ∧
      Held ifd ofd input i after (.writing block) := by
  rw [complete_request isRequest rfl target] at completed
  cases completed
  dsimp only
  rw [filled, List.length_map]
  refine ⟨rfl, some (blockAt input block).length, Function.update_self _ _ _, rfl, ?_, ?_, ?_⟩
  · exact (@count_other before .write .read (block * BSZ) _ (Or.inl write_ne_read.symm)).trans read
  · exact (@count_self before .write (block * BSZ)).trans (by rw [unwritten])
  · intro index isBlock inside
    have isOutput : ((before.count .write (block * BSZ)).setFile ofd
        (pwrite output (block * BSZ) ((blockAt input block).map translate))).files ofd =
          some (pwrite output (block * BSZ) ((blockAt input block).map translate)) :=
      Function.update_self _ _ _
    change (Option.getD (((before.count .write (block * BSZ)).setFile ofd _).files ofd) [])[index]? = _
    rw [isOutput]
    exact right index isBlock inside

theorem Valid.complete (different : ifd ≠ ofd) (valid : Valid ifd ofd input stages started before)
    (completed : complete i before = some after) : Valid ifd ofd input stages started after := by
  have stays : Function.update stages i (stages i) = stages := Function.update_eq_self i stages
  rw [← stays]
  have held := valid.held i
  cases stage : stages i with
  | idle | filled block | translated block =>
      rw [stage] at held
      have idle : before.requests i = none := by first | exact held | exact held.1
      rw [Rot13.complete, idle] at completed
      cases completed
  | reading block =>
      rw [stage] at held
      rcases held with ⟨result, isRequest, unwritten, kept⟩
      cases result with
      | some n =>
          rw [Rot13.complete, isRequest] at completed
          cases completed
      | none =>
          rcases @Held.complete_read ifd ofd _ _ _ _ _ valid.source isRequest kept unwritten completed with
            ⟨isAfter, held⟩
          have isMade (opcode : Opcode) (offset : Nat) (apart : offset ≠ block * BSZ) :
              after.made opcode offset = before.made opcode offset := by
            rw [isAfter]
            exact @count_other before .read opcode (block * BSZ) offset (Or.inr apart)
          have isFiles : after.files = before.files := by
            rw [isAfter]
            rfl
          apply valid.change
          · intro j other
            rw [isAfter]
            exact Function.update_of_ne other _ _
          · intro j other
            rw [isAfter]
            exact Function.update_of_ne other _ _
          · intro other notMine
            rw [stage] at notMine
            have apart : other ≠ block := fun same => notMine (by rw [same]; rfl)
            refine ⟨fun opcode => isMade opcode _ (mul_BSZ_ne apart), fun right => ?_⟩
            rw [Written, isFiles]
            exact right
          · intro offset odd opcode
            apply isMade
            intro same
            rw [same, Nat.mul_mod_left] at odd
            exact odd rfl
          · rw [isFiles]
          · rw [isFiles]
            exact valid.target
          · exact held
          · rw [stage]
            exact Or.inl rfl
  | writing block =>
      rw [stage] at held
      rcases held with ⟨result, isRequest, kept⟩
      cases result with
      | some n =>
          rw [Rot13.complete, isRequest] at completed
          cases completed
      | none =>
          rcases valid.target with ⟨output, isOutput, sized⟩
          have written (index : Nat) (inside : index < input.length) :=
            @written_pwrite _ block output index inside
          rcases Held.complete_write isOutput isRequest kept.2.1 kept.1 kept.2.2
            (fun index isBlock inside => (written index inside).1 isBlock) completed with
            ⟨isAfter, held⟩
          have isOutputAfter : after.files ofd =
              some (pwrite output (block * BSZ) ((blockAt input block).map translate)) := by
            rw [isAfter]
            exact Function.update_self _ _ _
          have isMade (opcode : Opcode) (offset : Nat) (apart : offset ≠ block * BSZ) :
              after.made opcode offset = before.made opcode offset := by
            rw [isAfter]
            exact @count_other before .write opcode (block * BSZ) offset (Or.inr apart)
          apply valid.change
          · intro j other
            rw [isAfter]
            exact Function.update_of_ne other _ _
          · intro j other
            rw [isAfter]
            rfl
          · intro other notMine
            rw [stage] at notMine
            have apart : other ≠ block := fun same => notMine (by rw [same]; rfl)
            refine ⟨fun opcode => isMade opcode _ (mul_BSZ_ne apart), fun right index isBlock inside => ?_⟩
            rw [isOutputAfter]
            have right := right index isBlock inside
            rw [isOutput] at right
            exact (written index inside).2 (by rw [isBlock]; exact apart) right
          · intro offset odd opcode
            apply isMade
            intro same
            rw [same, Nat.mul_mod_left] at odd
            exact odd rfl
          · rw [isAfter]
            exact Function.update_of_ne different _ _
          · refine ⟨_, isOutputAfter, ?_⟩
            have range := valid.range i block (by rw [stage]; rfl)
            have inside := valid.inside
            rw [length_pwrite, List.length_map, length_blockAt]
            simp only [BSZ] at inside ⊢
            omega
          · exact held
          · rw [stage]
            exact Or.inl rfl

theorem complete_spec (completed : complete i before = some after) :
    (∃ request, before.requests i = some request ∧ request.result = none) ∧
      ∀ j, j ≠ i → after.requests j = before.requests j := by
  rw [complete] at completed
  rcases Option.bind_eq_some_iff.mp completed with ⟨request, isRequest, goesOn⟩
  by_cases pending : request.result = none
  · refine ⟨⟨request, isRequest, pending⟩, fun j other => ?_⟩
    rw [if_neg (Classical.not_not.mpr pending)] at goesOn
    rcases Option.bind_eq_some_iff.mp goesOn with ⟨text, isText, goesOn⟩
    cases opcode : request.opcode with
    | read | write =>
        rw [opcode] at goesOn
        cases goesOn
        exact Function.update_of_ne other _ _
  · rw [if_pos pending] at goesOn
    cases goesOn

theorem result_eq_none (idle : system.requests i = none) : system.result i = none := by
  rw [System.result, idle]
  rfl

theorem result_eq {opcode : Opcode} {aiocb : Aiocb} {result : Option Nat}
    (isRequest : system.requests i = some ⟨opcode, aiocb, result⟩) : system.result i = result := by
  rw [System.result, isRequest]
  rfl

/-- What is complete stays so. -/
theorem complete_keeps {buffer : Buffer} (completed : complete buffer before = some after)
    (done : before.result i ≠ none) : after.result i ≠ none := by
  rcases complete_spec completed with ⟨⟨request, isRequest, pending⟩, others⟩
  by_cases same : i = buffer
  · subst same
    rw [System.result, isRequest] at done
    exact absurd pending done
  · rw [System.result, others i same]
    exact done

end Complete

/-! ## The buffers of the program -/

/-- What the program keeps for a buffer. -/
def Kept (input : Bytes) (buf : Buf) (listed : Bool) : Stage → Prop
  | .idle => buf.op = .UNUSED ∧ listed = false
  | .reading block => buf.op = .READ_PENDING ∧ listed = true ∧
      buf.aiocb.aio_offset = block * BSZ ∧ (input.length ≤ (block + 1) * BSZ → buf.last = true)
  | .writing block => buf.op = .WRITE_PENDING ∧ listed = true ∧
      buf.aiocb.aio_nbytes = (blockAt input block).length
  | .filled _ | .translated _ => False

def Stage.busy : Stage → Nat
  | .idle => 0
  | _ => 1

/-- The steps that a buffer has ahead of it. -/
def Stage.weight : Stage → Nat
  | .idle => 0
  | .reading _ | .filled _ | .translated _ => 2
  | .writing _ => 1

structure Matches (input : Bytes) (stages : Buffer → Stage) (started : Nat) (locals : Locals) :
    Prop where
  off : locals.off = started * BSZ
  numop : locals.numop = ∑ i, (stages i).busy
  kept : ∀ i, Kept input (locals.bufs i) (locals.aiolist i) (stages i)

/-- The steps that are left, three for each block. -/
def effort (input : Bytes) (stages : Buffer → Stage) (started : Nat) : Nat :=
  3 * ((input.length - started * BSZ + (BSZ - 1)) / BSZ) + ∑ i, (stages i).weight

/-- There is a step to take for a buffer. -/
def CanServe (input : Bytes) (stages : Buffer → Stage) (started : Nat) (system : System)
    (i : Buffer) : Prop :=
  stages i = .idle ∧ started * BSZ < input.length ∨ system.result i ≠ none

theorem sum_update (measure : Stage → Nat) (stages : Buffer → Stage) (i : Buffer) (stage : Stage) :
    (∑ j, measure (Function.update stages i stage j)) + measure (stages i) =
      (∑ j, measure (stages j)) + measure stage := by
  have same : ∑ j ∈ Finset.univ.erase i, measure (Function.update stages i stage j) =
      ∑ j ∈ Finset.univ.erase i, measure (stages j) := by
    apply Finset.sum_congr rfl
    intro j member
    rw [Function.update_of_ne (Finset.ne_of_mem_erase member)]
  rw [← Finset.add_sum_erase _ _ (Finset.mem_univ i), same, Function.update_self,
    ← Finset.add_sum_erase Finset.univ (fun j => measure (stages j)) (Finset.mem_univ i)]
  omega

section Service

variable {ifd ofd : String} {input : Bytes} {stages : Buffer → Stage} {started block : Nat}
  {before after system : System} {i : Buffer} {locals : Locals}

/-- The program has gone on, or there was nothing to do for the buffers in a list. -/
def Served (ifd ofd : String) (input : Bytes) (stages : Buffer → Stage) (started : Nat)
    (system : System) (buffers : List Buffer) (locals : Locals) (after : System) : Prop :=
  ∃ stages' started', Valid ifd ofd input stages' started' after ∧
    Matches input stages' started' locals ∧
    (effort input stages' started' < effort input stages started ∨
      stages' = stages ∧ started' = started ∧
        (∀ i ∈ buffers, ¬ CanServe input stages started system i) ∧
        ∀ i, system.result i ≠ none → after.result i ≠ none)

theorem Matches.setBuf (same : Matches input stages started locals) {buf : Buf} {listed : Bool}
    {stage : Stage} {off numop started' : Nat} (isOff : off = started' * BSZ)
    (isNumop : numop + (stages i).busy = locals.numop + stage.busy)
    (kept : Kept input buf listed stage) :
    Matches input (Function.update stages i stage) started'
      { locals.setBuf i buf with
        off := off
        aiolist := Function.update locals.aiolist i listed
        numop := numop } where
  off := isOff
  numop := by
    have total := sum_update Stage.busy stages i stage
    rw [same.numop] at isNumop
    dsimp only
    omega
  kept := by
    intro j
    by_cases isThis : j = i
    · subst isThis
      simp only [Locals.setBuf, Function.update_self]
      exact kept
    · simp only [Locals.setBuf, Function.update_of_ne isThis]
      exact same.kept j

/-- A free buffer takes the next block. -/
theorem Valid.start (valid : Valid ifd ofd input stages started before) (idle : stages i = .idle)
    (more : started * BSZ < input.length) :
    Valid ifd ofd input (Function.update stages i (.reading started)) (started + 1)
      (before.setRequest i (some ⟨.read, ⟨ifd, started * BSZ, BSZ⟩, none⟩)) := by
  have holder : ∀ j block, (Function.update stages i (.reading started) j).block = some block →
      j = i ∧ block = started ∨ j ≠ i ∧ (stages j).block = some block := by
    intro j block isBlock
    by_cases same : j = i
    · subst same
      rw [Function.update_self] at isBlock
      cases isBlock
      exact Or.inl ⟨rfl, rfl⟩
    · rw [Function.update_of_ne same] at isBlock
      exact Or.inr ⟨same, isBlock⟩
  have agrees (block : Nat) : Agrees ofd input block before
      (before.setRequest i (some ⟨.read, ⟨ifd, started * BSZ, BSZ⟩, none⟩)) :=
    Agrees.same rfl rfl
  constructor
  · exact valid.source
  · exact valid.target
  · rw [Nat.add_mul, Nat.one_mul]
    omega
  · intro j
    by_cases same : j = i
    · subst same
      rw [Function.update_self]
      exact ⟨none, Function.update_self _ _ _, valid.untouched _ (Or.inr (Nat.le_refl _)) _,
        valid.untouched _ (Or.inr (Nat.le_refl _)) _⟩
    · rw [Function.update_of_ne same]
      exact (valid.held j).agrees (Function.update_of_ne same _ _) rfl fun block _ => agrees block
  · intro j block isBlock
    rcases holder j block isBlock with ⟨_, rfl⟩ | ⟨_, old⟩
    · exact Nat.lt_succ_self _
    · exact Nat.lt_succ_of_lt (valid.range j block old)
  · intro j k block left right
    rcases holder j block left with ⟨rfl, rfl⟩ | ⟨_, oldLeft⟩
    · rcases holder k _ right with ⟨rfl, _⟩ | ⟨_, oldRight⟩
      · rfl
      · exact absurd (valid.range k _ oldRight) (Nat.lt_irrefl _)
    · rcases holder k block right with ⟨rfl, rfl⟩ | ⟨_, oldRight⟩
      · exact absurd (valid.range j _ oldLeft) (Nat.lt_irrefl _)
      · exact valid.apart j k block oldLeft oldRight
  · intro block isStarted nobody
    have notThis : block ≠ started := by
      intro same
      have mine := nobody i
      rw [Function.update_self, same] at mine
      exact mine rfl
    apply (valid.finished block (by omega) _).agrees (agrees block)
    intro j isBlock
    by_cases same : j = i
    · subst same
      rw [idle] at isBlock
      cases isBlock
    · have notMine := nobody j
      rw [Function.update_of_ne same] at notMine
      exact notMine isBlock
  · intro offset out opcode
    apply valid.untouched
    rcases out with odd | late
    · exact Or.inl odd
    · right
      rw [Nat.add_mul] at late
      omega

/-- Steps of the program that leave the files alone. -/
theorem Valid.advance (valid : Valid ifd ofd input stages started before) {stage : Stage}
    (requests : ∀ j, j ≠ i → after.requests j = before.requests j)
    (data : ∀ j, j ≠ i → after.data j = before.data j)
    (files : after.files = before.files) (made : after.made = before.made)
    (held : Held ifd ofd input i after stage)
    (ends : stage.block = (stages i).block ∨
      stage.block = none ∧ ∀ block, (stages i).block = some block → Finished ofd input block after) :
    Valid ifd ofd input (Function.update stages i stage) started after := by
  apply valid.change requests data _ _ _ _ held ends
  · exact fun other _ => Agrees.same files made
  · intro offset _ opcode
    rw [made]
  · rw [files]
  · rw [files]
    exact valid.target

theorem submit_free {opcode : Opcode} {aiocb : Aiocb} (free : system.requests i = none) :
    system.submit i opcode aiocb = some (true, system.setRequest i (some ⟨opcode, aiocb, none⟩)) := by
  rw [System.submit, free]

theorem startRead_serves (different : ifd ≠ ofd) (valid : Valid ifd ofd input stages started system)
    (same : Matches input stages started locals) (idle : stages i = .idle) :
    Serves (Served ifd ofd input stages started system [i]) (startRead input.length ifd locals i)
      system := by
  rw [startRead, same.off]
  by_cases more : started * BSZ < input.length
  · rw [if_pos more]
    have stable := fun before buffer after valid =>
      @Valid.complete ifd ofd input stages started before after buffer different valid
    apply Serves.call stable valid
    intro between valid
    have free := valid.held i
    rw [idle] at free
    refine ⟨true, _, submit_free free, ?_⟩
    refine ⟨_, started + 1, valid.start idle more, ?_, Or.inl ?_⟩
    · apply same.setBuf
      · rw [Nat.add_mul, Nat.one_mul]
      · rw [idle]
        rfl
      · refine ⟨rfl, rfl, rfl, fun ends => ?_⟩
        rw [Bool.or_eq_true, decide_eq_true_eq]
        right
        rw [Nat.add_mul, Nat.one_mul] at ends
        exact ends
    · have total := sum_update Stage.weight stages i (.reading started)
      rw [idle] at total
      change _ + 0 = _ + 2 at total
      rw [effort, effort]
      simp only [BSZ] at more ⊢
      omega
  · rw [if_neg more]
    refine ⟨stages, started, valid, same, Or.inr ⟨rfl, rfl, fun j member can => ?_, fun _ done => done⟩⟩
    rw [List.mem_singleton.mp member] at can
    rcases can with ⟨_, more'⟩ | done
    · exact more more'
    · have free := valid.held i
      rw [idle] at free
      exact done (result_eq_none free)

theorem stableDone (different : ifd ≠ ofd) : ∀ before buffer after,
    (Valid ifd ofd input stages started before ∧ before.result i ≠ none) →
      complete buffer before = some after →
        Valid ifd ofd input stages started after ∧ after.result i ≠ none :=
  fun _ _ _ both completed =>
    ⟨both.1.complete different completed, complete_keeps completed both.2⟩

/-- A buffer whose read has come to its end is translated and written. -/
theorem startWrite_serves (different : ifd ≠ ofd)
    (valid : Valid ifd ofd input stages started system)
    (same : Matches input stages started locals) (reading : stages i = .reading block)
    (done : system.result i ≠ none) :
    Serves (fun locals after => ∃ stages', Valid ifd ofd input stages' started after ∧
        Matches input stages' started locals ∧
        effort input stages' started < effort input stages started)
      (startWrite ofd locals i) system := by
  have stable (stages : Buffer → Stage) := fun before buffer after valid =>
    @Valid.complete ifd ofd input stages started before after buffer different valid
  have kept := same.kept i
  rw [reading] at kept
  have isBlock : (stages i).block = some block := by rw [reading]; rfl
  have again (first second : Stage) : Function.update (Function.update stages i first) i second =
      Function.update stages i second := Function.update_idem _ _ _
  rw [startWrite]
  apply Serves.call (stableDone different) ⟨valid, done⟩
  rintro returned ⟨valid, done⟩
  have held := valid.held i
  rw [reading] at held
  rcases held with ⟨result, isRequest, unwritten, filled⟩
  cases result with
  | none => exact absurd (result_eq isRequest) done
  | some n =>
      rcases filled with ⟨rfl, filled⟩
      have performed : perform (.aio_return i) returned =
          some (some (blockAt input block).length, returned.setRequest i none) := by
        rw [perform, result_eq isRequest]
        rfl
      refine ⟨_, _, performed, ?_⟩
      have validFilled : Valid ifd ofd input (Function.update stages i (.filled block)) started
          (returned.setRequest i none) := by
        apply valid.advance
        · exact fun j other => Function.update_of_ne other _ _
        · exact fun _ _ => rfl
        · rfl
        · rfl
        · exact ⟨Function.update_self _ _ _, unwritten, filled⟩
        · exact Or.inl isBlock.symm
      have full : ¬ ((blockAt input block).length ≠ BSZ ∧ (locals.bufs i).last = false) := by
        rintro ⟨short, notLast⟩
        rw [kept.2.2.2] at notLast
        · cases notLast
        · rw [length_blockAt] at short
          rw [Nat.add_mul, Nat.one_mul]
          omega
      dsimp only
      rw [if_neg full]
      apply Serves.call (stable _) validFilled
      intro loaded validLoaded
      refine ⟨_, _, rfl, ?_⟩
      have heldLoaded := validLoaded.held i
      rw [Function.update_self] at heldLoaded
      have isText := heldLoaded.2.2.2
      apply Serves.call (stable _) validLoaded
      intro stored validStored
      refine ⟨_, _, rfl, ?_⟩
      have heldStored := validStored.held i
      rw [Function.update_self] at heldStored
      rw [isText]
      have validTranslated : Valid ifd ofd input (Function.update stages i (.translated block)) started
          (stored.setData i ((blockAt input block).map translate ++
            (loaded.data i).drop (blockAt input block).length)) := by
        rw [← again (.filled block) (.translated block)]
        apply validStored.advance
        · exact fun _ _ => rfl
        · exact fun j other => Function.update_of_ne other _ _
        · rfl
        · rfl
        · refine ⟨heldStored.1, heldStored.2.1, heldStored.2.2.1, ?_⟩
          have isData : (stored.setData i ((blockAt input block).map translate ++
              (loaded.data i).drop (blockAt input block).length)).data i =
                (blockAt input block).map translate ++
                  (loaded.data i).drop (blockAt input block).length := Function.update_self _ _ _
          rw [isData]
          apply List.take_left'
          rw [List.length_map]
        · left
          rw [Function.update_self]
          rfl
      apply Serves.call (stable _) validTranslated
      intro written validWritten
      have heldWritten := validWritten.held i
      rw [Function.update_self] at heldWritten
      refine ⟨true, _, submit_free heldWritten.1, ?_⟩
      refine ⟨Function.update stages i (.writing block), ?_, ?_, ?_⟩
      · rw [← again (.translated block) (.writing block)]
        apply validWritten.advance
        · exact fun j other => Function.update_of_ne other _ _
        · exact fun _ _ => rfl
        · rfl
        · rfl
        · refine ⟨none, ?_, heldWritten.2⟩
          rw [kept.2.2.1]
          exact Function.update_self _ _ _
        · left
          rw [Function.update_self]
          rfl
      · have listed : locals.aiolist = Function.update locals.aiolist i true := by
          rw [← kept.2.1, Function.update_eq_self]
        rw [Locals.setBuf, listed]
        apply same.setBuf same.off
        · rw [reading]
          rfl
        · exact ⟨rfl, rfl, rfl⟩
      · have total := sum_update Stage.weight stages i (.writing block)
        rw [reading] at total
        change _ + 2 = _ + 1 at total
        rw [effort, effort]
        omega

/-- A buffer whose write has come to its end is free. -/
theorem endWrite_serves (different : ifd ≠ ofd)
    (valid : Valid ifd ofd input stages started system)
    (same : Matches input stages started locals) (writing : stages i = .writing block)
    (done : system.result i ≠ none) :
    Serves (fun locals after => ∃ stages', Valid ifd ofd input stages' started after ∧
        Matches input stages' started locals ∧
        effort input stages' started < effort input stages started)
      (endWrite locals i) system := by
  have kept := same.kept i
  rw [writing] at kept
  rw [endWrite]
  apply Serves.call (stableDone different) ⟨valid, done⟩
  rintro returned ⟨valid, done⟩
  have held := valid.held i
  rw [writing] at held
  rcases held with ⟨result, isRequest, ended⟩
  cases result with
  | none => exact absurd (result_eq isRequest) done
  | some n =>
      rcases ended with ⟨rfl, finished⟩
      have performed : perform (.aio_return i) returned =
          some (some (blockAt input block).length, returned.setRequest i none) := by
        rw [perform, result_eq isRequest]
        rfl
      refine ⟨_, _, performed, ?_⟩
      dsimp only
      rw [if_neg (Classical.not_not.mpr kept.2.2.symm)]
      refine ⟨Function.update stages i .idle, ?_, ?_, ?_⟩
      · apply valid.advance
        · exact fun j other => Function.update_of_ne other _ _
        · exact fun _ _ => rfl
        · rfl
        · rfl
        · exact Function.update_self _ _ _
        · refine Or.inr ⟨rfl, fun other isOther => ?_⟩
          rw [writing] at isOther
          cases isOther
          exact ⟨finished.read, finished.write, finished.written⟩
      · apply same.setBuf same.off
        · have busy : (stages i).busy = 1 := by
            rw [writing]
            rfl
          have counted := sum_update Stage.busy stages i .idle
          have numop := same.numop
          change locals.numop - 1 + (stages i).busy = locals.numop + 0
          change _ + (stages i).busy = _ + 0 at counted
          omega
        · exact ⟨rfl, rfl⟩
      · have total := sum_update Stage.weight stages i .idle
        rw [writing] at total
        change _ + 1 = _ + 0 at total
        rw [effort, effort]
        omega

/-- As long as a request is in progress, its buffer is left alone. -/
theorem whenComplete_serves (different : ifd ≠ ofd) {failed : String} {next : Code Locals}
    (valid : Valid ifd ofd input stages started system)
    (same : Matches input stages started locals) (busy : stages i ≠ .idle)
    (requested : ∀ between, Valid ifd ofd input stages started between →
      ∃ request, between.requests i = some request)
    (goesOn : ∀ between, Valid ifd ofd input stages started between → between.result i ≠ none →
      Serves (fun locals after => ∃ stages', Valid ifd ofd input stages' started after ∧
        Matches input stages' started locals ∧
        effort input stages' started < effort input stages started) next between) :
    Serves (Served ifd ofd input stages started system [i]) (whenComplete failed locals i next)
      system := by
  rw [whenComplete]
  have stable : ∀ before buffer after,
      (Valid ifd ofd input stages started before ∧
        ∀ j, system.result j ≠ none → before.result j ≠ none) →
      complete buffer before = some after →
        Valid ifd ofd input stages started after ∧
          ∀ j, system.result j ≠ none → after.result j ≠ none :=
    fun before buffer after both completed =>
      ⟨both.1.complete different completed, fun j done => complete_keeps completed (both.2 j done)⟩
  apply Serves.call stable ⟨valid, fun _ done => done⟩
  rintro between ⟨valid, keeps⟩
  rcases requested between valid with ⟨request, isRequest⟩
  have isResult : between.result i = request.result := result_eq isRequest
  have performed : perform (.aio_error i) between =
      some (if request.result = none then EINPROGRESS else 0, between) := by
    rw [perform, isRequest]
    rfl
  refine ⟨_, _, performed, ?_⟩
  by_cases pending : request.result = none
  · rw [if_pos pending, if_pos rfl]
    refine ⟨stages, started, valid, same, Or.inr ⟨rfl, rfl, fun j member can => ?_, keeps⟩⟩
    rw [List.mem_singleton.mp member] at can
    rcases can with ⟨idle, _⟩ | done
    · exact busy idle
    · exact keeps i done (isResult.trans pending)
  · have notPending : (0 : Int) ≠ EINPROGRESS := by decide
    rw [if_neg pending, if_neg notPending, if_neg (Classical.not_not.mpr rfl)]
    apply (goesOn between valid (by rw [isResult]; exact pending)).mono
    rintro locals after ⟨stages', valid', matches', less⟩
    exact ⟨stages', started, valid', matches', Or.inl less⟩

theorem service_serves (different : ifd ≠ ofd) (valid : Valid ifd ofd input stages started system)
    (same : Matches input stages started locals) :
    Serves (Served ifd ofd input stages started system [i])
      (service input.length ifd ofd locals i) system := by
  have kept := same.kept i
  rw [service]
  cases stage : stages i with
  | idle =>
      rw [stage] at kept
      rw [kept.1]
      exact startRead_serves different valid same stage
  | reading block =>
      rw [stage] at kept
      rw [kept.1]
      apply whenComplete_serves different valid same
      · rw [stage]
        exact Stage.noConfusion
      · intro between valid
        have held := valid.held i
        rw [stage] at held
        exact ⟨_, held.choose_spec.1⟩
      · exact fun between valid done => startWrite_serves different valid same stage done
  | writing block =>
      rw [stage] at kept
      rw [kept.1]
      apply whenComplete_serves different valid same
      · rw [stage]
        exact Stage.noConfusion
      · intro between valid
        have held := valid.held i
        rw [stage] at held
        exact ⟨_, held.choose_spec.1⟩
      · exact fun between valid done => endWrite_serves different valid same stage done
  | filled block | translated block =>
      rw [stage] at kept
      exact kept.elim

/-- One pass over the buffers. -/
theorem scan_serves (different : ifd ≠ ofd) (buffers : List Buffer)
    (valid : Valid ifd ofd input stages started system)
    (same : Matches input stages started locals) :
    Serves (Served ifd ofd input stages started system buffers)
      (buffers.foldlM (service input.length ifd ofd) locals) system := by
  induction buffers generalizing stages started locals system with
  | nil => exact ⟨stages, started, valid, same, Or.inr ⟨rfl, rfl, nofun, fun _ done => done⟩⟩
  | cons first buffers hypothesis =>
      rw [List.foldlM_cons]
      apply Program.Always.bind
      apply (service_serves different valid same).mono
      rintro locals' between ⟨stages', started', valid', same', outcome⟩
      apply (hypothesis valid' same').mono
      rintro last after ⟨stages'', started'', valid'', same'', outcome'⟩
      refine ⟨stages'', started'', valid'', same'', ?_⟩
      rcases outcome with less | ⟨rfl, rfl, cannot, keeps⟩
      · left
        rcases outcome' with less' | ⟨rfl, rfl, _⟩
        · exact Nat.lt_trans less' less
        · exact less
      · rcases outcome' with less' | ⟨rfl, rfl, cannot', keeps'⟩
        · exact Or.inl less'
        · refine Or.inr ⟨rfl, rfl, fun i member can => ?_, fun i done => keeps' i (keeps i done)⟩
          rcases List.mem_cons.mp member with rfl | later
          · exact cannot i (List.mem_singleton_self i) can
          · exact cannot' i later (can.imp_right (keeps i))

/-- A request that is in progress can complete. -/
theorem exists_complete (valid : Valid ifd ofd input stages started system) (busy : ∃ block,
      stages i = .reading block ∨ stages i = .writing block) :
    ∃ later, Completes system later ∧ later.result i ≠ none := by
  have held := valid.held i
  have inProgress {request : Request} {text : Bytes} (isRequest : system.requests i = some request)
      (isText : system.files request.aiocb.aio_fildes = some text) :
      ∃ later, Completes system later ∧ later.result i ≠ none := by
    by_cases pending : request.result = none
    · refine ⟨_, .single ⟨i, complete_request isRequest pending isText⟩, ?_⟩
      rw [System.result]
      cases request.opcode with
      | read | write =>
          dsimp only [System.setRequest]
          rw [Function.update_self]
          exact Option.some_ne_none _
    · refine ⟨system, .refl, ?_⟩
      rw [System.result, isRequest]
      exact pending
  rcases busy with ⟨block, reading | writing⟩
  · rw [reading] at held
    exact inProgress held.choose_spec.1 valid.source
  · rw [writing] at held
    exact inProgress held.choose_spec.1 valid.target.choose_spec.1

/-- `aio_suspend` comes back, and then there is a step to take. -/
theorem suspend_serves {rest : Bool → Code Locals} {post : Locals → System → Prop}
    (different : ifd ≠ ofd) (valid : Valid ifd ofd input stages started system)
    (same : Matches input stages started locals) (pending : locals.numop ≠ 0)
    (continued : ∀ after, Valid ifd ofd input stages started after →
      (∃ i, CanServe input stages started after i) → Serves post (rest true) after) :
    Serves post (Program.perform (Call.aio_suspend locals.aiolist) >>= rest) system := by
  have stable := fun before buffer after valid =>
    @Valid.complete ifd ofd input stages started before after buffer different valid
  have busy : ∃ i, stages i ≠ .idle := by
    by_contra none
    apply pending
    rw [same.numop]
    apply Finset.sum_eq_zero
    intro i _
    rw [Classical.not_not.mp (not_exists.mp none i)]
    rfl
  rcases busy with ⟨i, busy⟩
  have kept := same.kept i
  have listed : locals.aiolist i = true ∧
      ∃ block, stages i = .reading block ∨ stages i = .writing block := by
    cases stage : stages i with
    | idle => exact absurd stage busy
    | reading block | writing block =>
        rw [stage] at kept
        exact ⟨kept.2.1, block, by first | exact Or.inl rfl | exact Or.inr rfl⟩
    | filled block | translated block =>
        rw [stage] at kept
        exact kept.elim
  apply Program.Always.call
  · intro between completes
    rcases exists_complete (completes.keeps stable valid) listed.2 with ⟨later, completes', done⟩
    refine ⟨later, completes', ?_⟩
    rw [perform, if_pos ⟨i, listed.1, done⟩]
    rfl
  · rintro response after ⟨between, completes, performed⟩
    rw [perform] at performed
    by_cases done : ∃ buffer, locals.aiolist buffer = true ∧ between.result buffer ≠ none
    · rw [if_pos done] at performed
      cases performed
      rcases done with ⟨buffer, _, done⟩
      exact continued _ (completes.keeps stable valid) ⟨buffer, Or.inr done⟩
    · rw [if_neg done] at performed
      cases performed

theorem no_busy (weightless : ∑ i, (stages i).weight = 0) : ∑ i, (stages i).busy = 0 := by
  apply Finset.sum_eq_zero
  intro i member
  have none := Finset.sum_eq_zero_iff.mp weightless i member
  cases stage : stages i with
  | idle => rfl
  | reading | filled | translated | writing =>
      rw [stage] at none
      cases none

/-- All blocks are written. -/
def Complete (ifd ofd : String) (input : Bytes) (locals : Locals) (after : System) : Prop :=
  ∃ stages started, Valid ifd ofd input stages started after ∧ (∀ i, stages i = .idle) ∧
    input.length ≤ started * BSZ ∧ Matches input stages started locals

theorem mainLoop_serves (different : ifd ≠ ofd) (rounds : Nat)
    (valid : Valid ifd ofd input stages started system)
    (same : Matches input stages started locals) (enough : effort input stages started < rounds)
    (can : effort input stages started = 0 ∨ ∃ i, CanServe input stages started system i) :
    Serves (Complete ifd ofd input) (mainLoop input.length ifd ofd rounds locals) system := by
  induction rounds generalizing stages started locals system with
  | zero => exact absurd enough (Nat.not_lt_zero _)
  | succ rounds hypothesis =>
      rw [mainLoop]
      apply Program.Always.bind
      apply (scan_serves different (List.finRange NBUF) valid same).mono
      rintro locals after ⟨stages', started', valid', same', outcome⟩
      have idle (none : locals.numop = 0) (i : Buffer) : stages' i = .idle := by
        rw [same'.numop] at none
        have notBusy := (Finset.sum_eq_zero_iff.mp none) i (Finset.mem_univ i)
        cases stage : stages' i with
        | idle => rfl
        | reading | filled | translated | writing =>
            rw [stage] at notBusy
            cases notBusy
      have decreased (more : effort input stages' started' ≠ 0) :
          effort input stages' started' < effort input stages started := by
        rcases outcome with less | ⟨rfl, rfl, cannot, _⟩
        · exact less
        · rcases can with nothing | ⟨i, can⟩
          · exact absurd nothing more
          · exact absurd can (cannot i (List.mem_finRange i))
      by_cases none : locals.numop = 0
      · rw [if_pos none, same'.off]
        by_cases ended : input.length ≤ started' * BSZ
        · rw [if_pos ended]
          exact ⟨stages', started', valid', idle none, ended, same'⟩
        · rw [if_neg ended]
          have less := decreased (by
            rw [effort]
            simp only [BSZ] at ended ⊢
            omega)
          apply hypothesis valid' same' (by omega)
          exact Or.inr ⟨0, Or.inl ⟨idle none 0, Nat.not_le.mp ended⟩⟩
      · rw [if_neg none]
        apply suspend_serves different valid' same' none
        intro last valid'' can'
        have less := decreased fun zero => none (by
          rw [same'.numop]
          exact no_busy (Nat.add_eq_zero_iff.mp zero).2)
        exact hypothesis valid'' same' (by omega) (Or.inr can')

end Service

section Main

variable {infile outfile : String} {input : Bytes} {locals : Locals} {system : System}

/-- The output is right, no transfer is pending, and each block was read and written
once, where it belongs. -/
structure CopiedOnce (outfile : String) (input : Bytes) (system : System) : Prop where
  target : system.files outfile = some (input.map translate)
  idle : ∀ buffer, system.requests buffer = none
  once : ∀ opcode offset, system.made opcode offset =
    if offset % BSZ = 0 ∧ offset < input.length then 1 else 0

theorem Complete.copiedOnce (complete : Complete infile outfile input locals system) :
    CopiedOnce outfile input system := by
  rcases complete with ⟨stages, started, valid, idle, ended, _⟩
  have finished (block : Nat) (isStarted : block < started) :
      Finished outfile input block system := by
    apply valid.finished block isStarted
    intro i isBlock
    rw [idle i] at isBlock
    cases isBlock
  have below (offset : Nat) (inside : offset < input.length) : offset / BSZ < started :=
    (Nat.div_lt_iff_lt_mul (by decide)).mpr (Nat.lt_of_lt_of_le inside ended)
  rcases valid.target with ⟨output, isOutput, sized⟩
  constructor
  · rw [isOutput]
    congr 1
    apply List.ext_getElem?
    intro index
    by_cases inside : index < input.length
    · have written := (finished _ (below index inside)).written index rfl inside
      rw [isOutput] at written
      exact written
    · rw [List.getElem?_eq_none (by omega), List.getElem?_eq_none]
      rw [List.length_map]
      omega
  · intro buffer
    have held := valid.held buffer
    rw [idle buffer] at held
    exact held
  · intro opcode offset
    by_cases own : offset % BSZ = 0 ∧ offset < input.length
    · have isOffset : offset / BSZ * BSZ = offset :=
        Nat.div_mul_cancel (Nat.dvd_of_mod_eq_zero own.1)
      have transferred := finished _ (below offset own.2)
      rw [if_pos own, ← isOffset]
      cases opcode with
      | read => exact transferred.read
      | write => exact transferred.write
    · rw [if_neg own]
      apply valid.untouched
      by_cases odd : offset % BSZ = 0
      · right
        have beyond : input.length ≤ offset := Nat.not_lt.mp fun inside => own ⟨odd, inside⟩
        have inside := valid.inside
        simp only [BSZ] at odd inside ⊢
        omega
      · exact Or.inl odd

theorem main_serves {program : String} {rounds : Nat} (different : infile ≠ outfile)
    (idle : ∀ buffer, system.requests buffer = none)
    (unmade : ∀ opcode offset, system.made opcode offset = 0)
    (source : system.files infile = some input) (enough : 3 * input.length < rounds) :
    Serves (fun _ after => CopiedOnce outfile input after)
      (main rounds [program, infile, outfile]) system := by
  have opened : perform (.openRead infile) system =
      some (some infile, system.setPosition infile 0) := by
    rw [perform, source]
    rfl
  apply Serves.alone idle opened
  let created := ((system.setPosition infile 0).setFile outfile []).setPosition outfile 0
  have created_source : created.files infile = some input :=
    (Function.update_of_ne different _ _).trans source
  have opening : ∀ buffer, (system.setPosition infile 0).requests buffer = none := idle
  have performed : perform (.openWrite outfile) (system.setPosition infile 0) =
      some (some outfile, created) := rfl
  apply Serves.alone opening performed
  have createdIdle : ∀ buffer, created.requests buffer = none := idle
  have sized : perform (.fstat infile) created = some (some input.length, created) := by
    rw [perform, created_source]
    rfl
  apply Serves.alone createdIdle sized
  have valid : Valid infile outfile input (fun _ => .idle) 0 created := by
    constructor
    · exact created_source
    · exact ⟨[], Function.update_self _ _ _, Nat.zero_le _⟩
    · rw [Nat.zero_mul]
      exact Nat.add_pos_right _ (by decide)
    · exact fun buffer => idle buffer
    · exact fun _ _ isBlock => by cases isBlock
    · exact fun _ _ _ isBlock => by cases isBlock
    · exact fun _ early => absurd early (Nat.not_lt_zero _)
    · exact fun offset _ opcode => unmade opcode offset
  have same : Matches input (fun _ => .idle) 0 initial := by
    constructor
    · rw [Nat.zero_mul]
      rfl
    · exact (Finset.sum_const_zero).symm
    · exact fun _ => ⟨rfl, rfl⟩
  have effortIs : effort input (fun _ => .idle) 0 = 3 * ((input.length + (BSZ - 1)) / BSZ) := by
    rw [effort, Nat.zero_mul, Nat.sub_zero]
    exact Nat.add_zero _
  apply Program.Always.bind
  apply (mainLoop_serves different rounds valid same _ _).mono
  · intro last after complete
    have copied := complete.copiedOnce
    have synced : perform (.aio_fsync 0 { (last.bufs 0).aiocb with aio_fildes := outfile }) after =
        some (true, after) := rfl
    apply Serves.alone copied.idle synced
    exact copied
  · rw [effortIs]
    simp only [BSZ]
    omega
  · rw [effortIs]
    by_cases empty : input.length = 0
    · left
      rw [empty]
      rfl
    · exact Or.inr ⟨0, Or.inl ⟨rfl, by rw [Nat.zero_mul]; omega⟩⟩

end Main

end Rot13c2

/-- However the transfers of `rot13c2` complete, it comes to its end, and its output
is the output of `rot13a`. -/
theorem rot13c2_copies {infile outfile program : String} {input : Bytes} {system : System}
    {rounds : Nat} (different : infile ≠ outfile)
    (idle : ∀ buffer, system.requests buffer = none)
    (unmade : ∀ opcode offset, system.made opcode offset = 0)
    (source : system.files infile = some input) (enough : 3 * input.length < rounds) :
    ∃ output,
      Serves (fun _ after => after.files outfile = some output)
        (Rot13a.main rounds [program, infile, outfile]) system ∧
      Serves (fun _ after => after.files outfile = some output ∧
          (∀ buffer, after.requests buffer = none) ∧
          ∀ opcode offset, after.made opcode offset =
            if offset % BSZ = 0 ∧ offset < input.length then 1 else 0)
        (Rot13c2.main rounds [program, infile, outfile]) system := by
  refine ⟨input.map translate, Rot13a.main_serves different idle source ?_, ?_⟩
  · omega
  · apply (Rot13c2.main_serves different idle unmade source enough).mono
    intro _ after copied
    exact ⟨copied.target, copied.idle, copied.once⟩

/-- A file of two bytes. -/
def twoBytes : System where
  files := fun path => if path = "in" then some [72, 105] else none
  position := fun _ => 0
  data := fun _ => []
  requests := fun _ => none
  made := fun _ _ => 0

theorem rot13c2_copies_twoBytes : ∃ output,
    Serves (fun _ after => after.files "out" = some output)
      (Rot13a.main 7 ["rot13", "in", "out"]) twoBytes ∧
    Serves (fun _ after => after.files "out" = some output ∧
        (∀ buffer, after.requests buffer = none) ∧
        ∀ opcode offset, after.made opcode offset =
          if offset % BSZ = 0 ∧ offset < 2 then 1 else 0)
      (Rot13c2.main 7 ["rot13", "in", "out"]) twoBytes :=
  @rot13c2_copies "in" "out" "rot13" [72, 105] twoBytes 7 (by decide) (fun _ => rfl)
    (fun _ _ => rfl) rfl (by decide)

end Apue.Rot13
