import Apue.Sync.Copying

/-! # How directories are created

`create_directory` makes every directory on the way. Nothing else changes, and
what is there stays.
-/

namespace Apue.Sync

open Apue.Foundation

variable {cwd : Place} {front name path : Bytes}

/-! ## The directories on the way -/

theorem slashPrefixes_plain (noSlash : Path.SLASH ∉ name) : slashPrefixes name = [] := by
  rw [slashPrefixes, List.filterMap_eq_nil_iff]
  intro length _
  rw [if_neg]
  rintro ⟨_, isSlash⟩
  exact noSlash (List.mem_of_getElem? isSlash)

theorem slashPrefixes_join (noSlash : Path.SLASH ∉ name) :
    slashPrefixes (front ++ Path.SLASH :: name) =
      slashPrefixes front ++ if front = [] then [] else [front] := by
  have lengths : (front ++ Path.SLASH :: name).length = front.length + (1 + name.length) := by
    rw [List.length_append, List.length_cons, Nat.add_comm 1]
  rw [slashPrefixes, lengths, List.range_add, List.filterMap_append, slashPrefixes]
  congr 1
  · apply List.filterMap_congr
    intro length member
    have inside := List.mem_range.mp member
    rw [List.getElem?_append_left inside, List.take_append_of_le_length inside.le]
  · rw [Nat.add_comm 1, List.range_succ_eq_map, List.map_cons, List.filterMap_cons, List.map_map,
      List.filterMap_map]
    have behind : (List.range name.length).filterMap ((fun length =>
        if 0 < length ∧ (front ++ Path.SLASH :: name)[length]? = some Path.SLASH then
          some ((front ++ Path.SLASH :: name).take length) else none) ∘
        ((fun more => front.length + more) ∘ Nat.succ)) = [] := by
      rw [List.filterMap_eq_nil_iff]
      intro length _
      rw [Function.comp, if_neg]
      rintro ⟨_, isSlash⟩
      rw [Function.comp, List.getElem?_append_right (Nat.le_add_right _ _), Nat.add_sub_cancel_left,
        List.getElem?_cons_succ] at isSlash
      exact noSlash (List.mem_of_getElem? isSlash)
    rw [behind, Nat.add_zero]
    cases front with
    | nil => rfl
    | cons byte rest =>
        rw [if_pos ⟨Nat.succ_pos _, by simp⟩, List.take_left]
        rfl

/-- What `create_directory` makes for a path, which is the path itself at last. -/
def ladder (path : Bytes) : List Bytes := slashPrefixes path ++ [path]

theorem ladder_plain (noSlash : Path.SLASH ∉ name) : ladder name = [name] := by
  rw [ladder, slashPrefixes_plain noSlash, List.nil_append]

theorem ladder_root (noSlash : Path.SLASH ∉ name) :
    ladder (Path.SLASH :: name) = [Path.SLASH :: name] := by
  rw [ladder, ← List.nil_append (Path.SLASH :: name), slashPrefixes_join noSlash, if_pos rfl]
  rfl

theorem ladder_join (nonempty : front ≠ []) (noSlash : Path.SLASH ∉ name) :
    ladder (front ++ Path.SLASH :: name) = ladder front ++ [front ++ Path.SLASH :: name] := by
  rw [ladder, slashPrefixes_join noSlash, if_neg nonempty, ladder]

/-- Below a path the directories are made one by one. -/
theorem mem_ladder_below {front rung : Bytes} (nonempty : front ≠ []) {names : List Bytes}
    (noSlash : ∀ name ∈ names, Path.SLASH ∉ name) (member : rung ∈ ladder (front ++ Path.below names)) :
    rung ∈ ladder front ∨ ∃ higher, higher <+: names ∧ rung = front ++ Path.below higher := by
  induction names using List.reverseRecOn with
  | nil =>
      rw [Path.below_nil, List.append_nil] at member
      exact Or.inl member
  | append_singleton names name hypothesis =>
      rw [Path.below_concat, ← List.append_assoc,
        ladder_join (List.append_ne_nil_of_left_ne_nil nonempty _) (noSlash name (by simp))] at member
      rcases List.mem_append.mp member with higher | last
      · rcases hypothesis (fun other among => noSlash other (List.mem_append_left _ among)) higher with
          inFront | ⟨higher, isPrefix, same⟩
        · exact Or.inl inFront
        · exact Or.inr ⟨higher, isPrefix.trans (List.prefix_append _ _), same⟩
      · refine Or.inr ⟨names ++ [name], List.prefix_refl _, ?_⟩
        rw [List.mem_singleton.mp last, Path.below_concat, List.append_assoc]

/-! ## Slashes at the end -/

theorem trimSlashes_plain (nonempty : name ≠ []) (noSlash : Path.SLASH ∉ name) (front : Bytes) :
    trimSlashes (front ++ name) = front ++ name := by
  rcases List.eq_nil_or_concat name with rfl | ⟨init, last, rfl⟩
  · exact absurd rfl nonempty
  · have notSlash : ¬ (last == Path.SLASH) = true := by
      intro same
      exact noSlash (by rw [List.concat_eq_append, ← beq_iff_eq.mp same]; simp)
    rw [List.concat_eq_append, ← List.append_assoc, trimSlashes, List.reverse_append,
      List.reverse_singleton, List.singleton_append, List.dropWhile_cons, if_neg notSlash,
      List.reverse_cons, List.reverse_reverse]

theorem trimSlashes_join (nonempty : name ≠ []) (noSlash : Path.SLASH ∉ name) (front : Bytes) :
    trimSlashes (front ++ Path.SLASH :: name) = front ++ Path.SLASH :: name := by
  have same := trimSlashes_plain nonempty noSlash (front ++ [Path.SLASH])
  rw [List.append_assoc, List.singleton_append] at same
  exact same

theorem trimSlashes_slash (path : Bytes) : trimSlashes (path ++ [Path.SLASH]) = trimSlashes path := by
  rw [trimSlashes, List.reverse_append, List.reverse_singleton, List.singleton_append,
    List.dropWhile_cons_of_pos (by simp), trimSlashes]

/-- `mkdir` looks for the path itself, or for the path without its last slash. -/
theorem mkdirPath_plain (nonempty : name ≠ []) (noSlash : Path.SLASH ∉ name) (front : Bytes) :
    mkdirPath (front ++ name) = front ++ name := by
  rw [mkdirPath, trimSlashes_plain nonempty noSlash]
  split
  · rfl
  · rfl

theorem mkdirPath_join (nonempty : name ≠ []) (noSlash : Path.SLASH ∉ name) (front : Bytes) :
    mkdirPath (front ++ Path.SLASH :: name) = front ++ Path.SLASH :: name := by
  rw [mkdirPath, trimSlashes_join nonempty noSlash]
  split
  · rfl
  · rfl

theorem mkdirPath_slash (path : Bytes) : mkdirPath (path ++ [Path.SLASH]) = path ++ [Path.SLASH] ∨
    path ≠ [] ∧ mkdirPath (path ++ [Path.SLASH]) = mkdirPath path := by
  rw [mkdirPath, mkdirPath, trimSlashes_slash]
  split
  · exact Or.inl rfl
  · rename_i nonempty
    refine Or.inr ⟨?_, rfl⟩
    rintro rfl
    exact nonempty rfl

theorem destination_mkdirPath (cwd : Place) (path : Bytes) :
    Path.destination cwd (mkdirPath path) = Path.destination cwd path := by
  induction path using Path.by_last_slash with
  | plain name noSlash =>
      rcases eq_or_ne name [] with rfl | nonempty
      · rfl
      · have same := mkdirPath_plain nonempty noSlash []
        rw [List.nil_append] at same
        rw [same]
  | joined front name noSlash hypothesis =>
      rcases eq_or_ne name [] with rfl | nonempty
      · rcases mkdirPath_slash front with same | ⟨nonempty, same⟩
        · rw [same]
        · rw [same, hypothesis, Path.destination_name nonempty noSlash]
          rfl
      · have same := mkdirPath_join nonempty noSlash front
        rw [same]

/-- What leads somewhere does so without its last slashes, too. -/
theorem resolve_mkdirPath {files : Files} {place : Place}
    (resolved : files.resolve cwd path = some place) :
    files.resolve cwd (mkdirPath path) = some place := by
  induction path using Path.by_last_slash generalizing place with
  | plain name noSlash =>
      rcases eq_or_ne name [] with rfl | nonempty
      · exact resolved
      · have same := mkdirPath_plain nonempty noSlash []
        rw [List.nil_append] at same
        rw [same]
        exact resolved
  | joined front name noSlash hypothesis =>
      rcases eq_or_ne name [] with rfl | nonempty
      · rcases mkdirPath_slash front with same | ⟨nonempty, same⟩
        · rw [same]
          exact resolved
        · rw [same]
          apply hypothesis
          have leads := Files.front_of_resolve nonempty resolved
          rw [Files.resolve_name leads.1 leads.2 noSlash] at resolved
          rw [leads.1]
          exact resolved
      · have same := mkdirPath_join nonempty noSlash front
        rw [same]
        exact resolved

/-! ## Directories that are added -/

/-- Directories were added at some places, and nothing else changed. -/
structure Grown (ways : Place → Prop) (before after : SysState) : Prop where
  files : ∀ place, after.files place = before.files place ∨
    before.files place = none ∧ ways place ∧ after.files.isDirectory place = true
  others : after = { before with files := after.files }

section Grown

variable {ways more : Place → Prop} {before between after : SysState} {place : Place} {node : Node}

theorem Grown.refl (ways : Place → Prop) (state : SysState) : Grown ways state state :=
  ⟨fun _ => Or.inl rfl, rfl⟩

theorem Grown.sameCwd (grown : Grown ways before after) : after.cwd = before.cwd := by
  rw [grown.others]

theorem Grown.there (grown : Grown ways before after) (isThere : before.files place = some node) :
    after.files place = some node := by
  rcases grown.files place with same | ⟨absent, _, _⟩
  · rw [same, isThere]
  · rw [isThere] at absent
    cases absent

theorem Grown.isDirectory (grown : Grown ways before after)
    (directory : before.files.isDirectory place = true) : after.files.isDirectory place = true := by
  rcases Files.isDirectory_iff.mp directory with ⟨size, mtime, isThere⟩
  exact Files.isDirectory_iff.mpr ⟨size, mtime, grown.there isThere⟩

theorem Grown.resolve (grown : Grown ways before after)
    (resolved : before.files.resolve before.cwd path = some place) :
    after.files.resolve after.cwd path = some place := by
  rw [grown.sameCwd]
  exact Files.resolve_mono (fun _ => grown.isDirectory) resolved

theorem Grown.lookup (grown : Grown ways before after)
    (found : before.lookup path = some (place, node)) : after.lookup path = some (place, node) := by
  rcases Files.lookup_eq_some.mp found with ⟨resolved, isThere⟩
  exact Files.lookup_eq_some.mpr ⟨grown.resolve resolved, grown.there isThere⟩

theorem Grown.isSome (grown : Grown ways before after) (found : (before.lookup path).isSome = true) :
    (after.lookup path).isSome = true := by
  rcases Option.isSome_iff_exists.mp found with ⟨⟨place, node⟩, same⟩
  rw [grown.lookup same]
  rfl

theorem Grown.mono (grown : Grown ways before after) (implies : ∀ place, ways place → more place) :
    Grown more before after where
  files := fun place => (grown.files place).imp_right fun new => ⟨new.1, implies place new.2.1, new.2.2⟩
  others := grown.others

theorem Grown.trans (first : Grown ways before between) (second : Grown ways between after) :
    Grown ways before after where
  files := by
    intro place
    rcases first.files place with same | ⟨absent, way, directory⟩
    · rw [← same]
      exact second.files place
    · exact Or.inr ⟨absent, way, second.isDirectory directory⟩
  others := by
    rw [second.others, first.others]

/-- `mkdir` makes the directory at the end of its path, or it is there already. -/
theorem answers_mkdir {state after : SysState} {response : Int}
    (answered : Answers (.mkdir path) state response after) :
    (response = 0 ∨ response = EEXIST) ∧
      Grown (fun place => place = Path.destination state.cwd path) state after ∧
      (after.lookup (mkdirPath path)).isSome = true := by
  cases answered with
  | mkdirExists found =>
      refine ⟨Or.inr rfl, Grown.refl _ _, ?_⟩
      rw [found]
      rfl
  | mkdir size mtime resolved absent =>
      rename_i place
      have isDestination := Files.resolve_eq resolved
      rw [destination_mkdirPath] at isDestination
      have grown : Grown (fun place => place = Path.destination state.cwd path) state
          (state.setNode place (.directory size mtime)) := by
        constructor
        · intro other
          rcases eq_or_ne other place with rfl | different
          · refine Or.inr ⟨absent, isDestination, ?_⟩
            exact Files.isDirectory_iff.mpr ⟨size, mtime, SysState.setNode_files_same _ _ _⟩
          · exact Or.inl (SysState.setNode_files_other _ different)
        · rfl
      refine ⟨Or.inl rfl, grown, ?_⟩
      have found : (state.setNode place (.directory size mtime)).lookup (mkdirPath path) =
          some (place, .directory size mtime) :=
        Files.lookup_eq_some.mpr ⟨grown.resolve resolved, SysState.setNode_files_same _ _ _⟩
      rw [found]
      rfl

/-- The calls of `mkdir` make everything that is not there. -/
theorem mkdirs_always {paths : List Bytes} {state : SysState}
    (leads : ∀ path ∈ paths, ways (Path.destination state.cwd path)) :
    (mkdirs paths).Always Answers (fun call _ => call ≠ .outOfRounds)
      (fun result after => result = true ∧ Grown ways state after ∧
        ∀ path ∈ paths, (after.lookup (mkdirPath path)).isSome = true) state := by
  induction paths generalizing state with
  | nil => exact ⟨rfl, Grown.refl _ _, fun _ member => absurd member List.not_mem_nil⟩
  | cons path paths hypothesis =>
      rw [mkdirs]
      apply Program.Always.call (SysCall.noConfusion)
      intro errno between answered
      rcases answers_mkdir answered with ⟨made, grown, there⟩
      rw [if_neg (by rintro ⟨notZero, notThere⟩; exact made.elim notZero notThere)]
      have first : Grown ways state between := by
        apply grown.mono
        rintro place rfl
        exact leads path List.mem_cons_self
      apply Program.Always.mono (hypothesis fun other member => by
        rw [first.sameCwd]
        exact leads other (List.mem_cons_of_mem _ member))
      rintro result after ⟨isTrue, second, others⟩
      refine ⟨isTrue, first.trans second, fun other member => ?_⟩
      rcases List.mem_cons.mp member with rfl | behind
      · exact second.isSome there
      · exact others other behind

/-- The directories that `create_directory` makes, once it has copied its argument
and taken off a slash at the end. -/
def rungs (path : Bytes) : List Bytes :=
  let tmp := path.take (MAX_PATH_LEN - 1)
  ladder (if tmp.getLast? = some Path.SLASH then tmp.dropLast else tmp)

theorem createDirectory_always {state : SysState}
    (leads : ∀ rung ∈ rungs path, ways (Path.destination state.cwd rung)) :
    (createDirectory path).Always Answers (fun call _ => call ≠ .outOfRounds)
      (fun result after => result = true ∧ Grown ways state after) state := by
  rw [createDirectory]
  apply Program.Always.call (SysCall.noConfusion)
  intro there between answered
  cases answered
  split
  · exact ⟨rfl, Grown.refl _ _⟩
  dsimp only
  split
  · exact ⟨SysCall.noConfusion, fun never => nomatch never⟩
  · exact (mkdirs_always leads).mono fun _ _ made => ⟨made.1, made.2.1⟩

theorem SimpleRsync.createDirectoryRecursive_always {state : SysState}
    (leads : ∀ rung ∈ rungs path, ways (Path.destination state.cwd rung)) :
    (createDirectoryRecursive path).Always Answers (fun call _ => call ≠ .outOfRounds)
      (fun result after => result = 0 ∧ Grown ways state after) state := by
  rw [createDirectoryRecursive]
  dsimp only
  split
  · exact ⟨SysCall.noConfusion, fun never => nomatch never⟩
  · apply Program.Always.bind
    apply (mkdirs_always leads).mono
    rintro result after ⟨rfl, grown, _⟩
    exact ⟨rfl, grown⟩

end Grown

end Apue.Sync
