import Crashomon.Proofs.ElfAgreement

/-! Where the daemon and the tools give different build IDs. A read outside the file ends one of
the two, and every other difference in what they check shows, unless a sum has wrapped. -/

namespace Crashomon.Proofs.ElfDivergence
open Bytes Memory ElfNotes ElfReads ElfAgreement
open Daemon.ElfBuildId (mapFile sizeT sizeT_of_lt sizeT_le SectionFields Ehdr elfClass64 shtNote shtProgbits)

section Ends
variable {file : Buffer} {index : Nat}

theorem unsignedAt_lt (buf : Buffer) (off width : Nat) : unsignedAt buf off width < 256 ^ width := by
  have bound := leValue_lt (slice buf off width)
  have short : (slice buf off width).length ≤ width := List.length_take_le _ _
  exact Nat.lt_of_lt_of_le bound (Nat.pow_le_pow_right (by decide) short)

theorem inside_of_loadUnsigned {map : Buffer} {off width value : Nat} (small : off < 2 ^ 64)
    (read : Daemon.ElfBuildId.loadUnsigned map off width = .ok value) : off + width ≤ map.length := by
  obtain ⟨bytes, loaded, _⟩ := bind_ok.mp read
  rw [sizeT_of_lt small] at loaded
  exact inside_of_load loaded

theorem inside_of_daemon_readShdr {shdr : SectionFields} (bounded : headerAt file index + 40 < 2 ^ 64)
    (read : Daemon.ElfBuildId.readShdr (mapFile file) (ehdrAt file) index = .ok shdr) :
    headerEnd file index ≤ (mapFile file).length := by
  unfold Daemon.ElfBuildId.readShdr at read
  unfold headerEnd
  dsimp only at read
  rw [← headerAt] at read
  split at read
  next wide =>
    obtain ⟨_, _, read⟩ := bind_ok.mp read
    obtain ⟨_, _, read⟩ := bind_ok.mp read
    obtain ⟨_, _, read⟩ := bind_ok.mp read
    obtain ⟨_, last, _⟩ := bind_ok.mp read
    have inside := inside_of_loadUnsigned (by omega) last
    rw [if_pos wide]
    exact inside
  next narrow =>
    obtain ⟨_, _, read⟩ := bind_ok.mp read
    obtain ⟨_, _, read⟩ := bind_ok.mp read
    obtain ⟨_, _, read⟩ := bind_ok.mp read
    obtain ⟨_, last, _⟩ := bind_ok.mp read
    have inside := inside_of_loadUnsigned (by omega) last
    rw [if_neg narrow]
    exact inside

theorem inside_of_tool_readShdr {fields : Nat × Nat × Nat × Nat}
    (read : Tools.ElfBuildId.readShdr file (ehdrAt file).eShoff (ehdrAt file).eShentsize index (ehdrAt file).is64 = .ok fields) :
    headerEnd file index ≤ file.length := by
  unfold Tools.ElfBuildId.readShdr at read
  unfold headerEnd
  dsimp only at read
  rw [← headerAt] at read
  split at read
  next wide =>
    obtain ⟨_, _, read⟩ := Raising.bind_ok.mp read
    obtain ⟨_, _, read⟩ := Raising.bind_ok.mp read
    obtain ⟨_, _, read⟩ := Raising.bind_ok.mp read
    obtain ⟨_, last, _⟩ := Raising.bind_ok.mp read
    have inside := Python.inside_of_unpackUnsigned last
    rw [if_pos wide]
    exact inside
  next narrow =>
    obtain ⟨_, _, read⟩ := Raising.bind_ok.mp read
    obtain ⟨_, _, read⟩ := Raising.bind_ok.mp read
    obtain ⟨_, _, read⟩ := Raising.bind_ok.mp read
    obtain ⟨_, last, _⟩ := Raising.bind_ok.mp read
    have inside := Python.inside_of_unpackUnsigned last
    rw [if_neg narrow]
    exact inside

theorem inside_of_loadByte {map : Buffer} {off : Nat} {next : UInt8 → Checked α} {result : α} (small : off < 2 ^ 64)
    (ended : (loadByte map (sizeT off) >>= next) = .ok result) : ∃ inside : off < map.length, next map[off] = .ok result := by
  obtain ⟨byte, loaded, later⟩ := bind_ok.mp ended
  rw [sizeT_of_lt small] at loaded
  obtain ⟨inside, same⟩ := List.getElem?_eq_some_iff.mp (loadByte_ok.mp loaded)
  exact ⟨inside, same ▸ later⟩

theorem compares_of_nameEquals {map : Buffer} (small : map.length < 2 ^ 64) {off : Nat} (start : off ≤ map.length) {word : ByteString}
    {equal : Bool} (compared : Daemon.ElfBuildId.nameEquals map off word = .ok equal) : ¬ map.drop off <+: word := by
  induction word generalizing off with
  | nil =>
    obtain ⟨inside, _⟩ := inside_of_loadByte (by omega) compared
    rw [List.prefix_nil, List.drop_eq_nil_iff]
    omega
  | cons character word ih =>
    obtain ⟨inside, later⟩ := inside_of_loadByte (by omega) compared
    rw [List.drop_eq_getElem_cons inside, List.cons_prefix_cons]
    intro ⟨same, rest⟩
    rw [if_pos same] at later
    exact ih inside later rest

theorem inside_of_xorChunk {map : Buffer} (small : map.length < 2 ^ 64) {off : Nat} (bounded : off < 2 ^ 64) {hash result : List UInt8}
    (positive : hash ≠ []) (read : Daemon.ElfBuildId.xorChunk map off hash = .ok result) : off + hash.length ≤ map.length := by
  induction hash generalizing off result with
  | nil => exact absurd rfl positive
  | cons byte hash ih =>
    obtain ⟨inside, later⟩ := inside_of_loadByte bounded read
    obtain ⟨rest, more, _⟩ := bind_ok.mp later
    by_cases last : hash = []
    · rw [last, List.length_singleton]
      exact inside
    · have onward := ih (by omega) last more
      rw [List.length_cons]
      omega

theorem inside_of_xorChunks {map : Buffer} (small : map.length < 2 ^ 64) {chunks off : Nat} (bounded : off < 2 ^ 64) (some : 0 < chunks)
    (f : Nat → UInt8) {result : List UInt8} (read : Daemon.ElfBuildId.xorChunks map chunks off ((List.range 16).map f) = .ok result) :
    off + 16 * chunks ≤ map.length := by
  induction chunks generalizing off f result with
  | zero => exact absurd some (Nat.lt_irrefl 0)
  | succ chunks ih =>
    obtain ⟨next, first, later⟩ := bind_ok.mp read
    have here := inside_of_xorChunk small bounded (by simp) first
    rw [List.length_map, List.length_range] at here
    by_cases last : chunks = 0
    · omega
    · rw [xorChunk_eq small (by simpa using here), List.length_map, List.length_range, zipWith_slice f here] at first
      rw [← Except.ok.inj first] at later
      have onward := @ih (off + 16) (by omega) (Nat.pos_of_ne_zero last) _ _ later
      omega

theorem inside_of_xorTextSection (small : file.length < 2 ^ 63) {textOff textSize : Nat} (bounded : textOff < 2 ^ 64) (some : textSize ≠ 0)
    {result : List UInt8} (read : Daemon.ElfBuildId.xorTextSection (mapFile file) textOff textSize = .ok result) :
    textOff + 16 * ((min textSize 4096 + 15) / 16) ≤ (mapFile file).length := by
  have bounds := mapFile_bounds file
  unfold Daemon.ElfBuildId.xorTextSection at read
  dsimp only [Daemon.ElfBuildId.kXorHashSize, Daemon.ElfBuildId.kXorMaxBytes] at read
  rw [zeros_eq] at read
  exact inside_of_xorChunks (by omega) bounded (by omega) _ read

end Ends

section Sections
variable {file : Buffer} {bound index : Nat}

theorem plain_of_daemon_visit (small : file.length < 2 ^ 63) (names : strtab file < file.length) (exact_notes : ExactNotes file index)
    (header : headerEnd file index ≤ bound) {text : Nat × Nat} (state : (∀ seen ∈ textsBefore file index, seen.1 = 0) → text.1 = 0)
    {visit : Daemon.ElfBuildId.Visit}
    (visited : Daemon.ElfBuildId.visitSection (mapFile file) file.length (strtab file) (sectionAt file index) text.1 text.2 = .ok visit) :
    Plain file bound index := by
  have nameBound := shName_lt file index
  have bounds := mapFile_bounds file
  unfold Daemon.ElfBuildId.visitSection at visited
  rw [sizeT_of_lt (by omega), ← nameOffset] at visited
  refine ⟨header, ?_, ?_, exact_notes⟩
  · intro inside kind
    rw [if_neg (by omega)] at visited
    obtain ⟨bid, noted, _⟩ := bind_ok.mp visited
    unfold Daemon.ElfBuildId.noteBuildId at noted
    rw [if_pos kind] at noted
    obtain ⟨named, compared, _⟩ := bind_ok.mp noted
    exact compares_of_nameEquals (by omega) (by omega) compared
  · intro inside kind fresh
    have other : (sectionAt file index).shType ≠ shtNote := by
      rw [kind]
      decide
    have noNote : Daemon.ElfBuildId.noteBuildId (mapFile file) file.length (nameOffset file index) (sectionAt file index) = .ok [] :=
      if_neg other
    rw [if_neg (by omega)] at visited
    dsimp only at visited
    rw [noNote, Memory.ok_bind, if_neg (not_not.mpr rfl)] at visited
    obtain ⟨isText, compared, _⟩ := bind_ok.mp visited
    unfold Daemon.ElfBuildId.isText at compared
    rw [if_pos ⟨kind, state fresh⟩] at compared
    exact compares_of_nameEquals (by omega) (by omega) compared

theorem daemonText_fresh (fresh : ∀ seen ∈ textsBefore file index, seen.1 = 0) : (daemonText file index).1 = 0 := by
  rcases daemonText_eq file index with ⟨chosen, found, _⟩ | ⟨_, zero⟩
  · have positive : chosen.1 ≠ 0 := by simpa using List.find?_some found
    exact absurd (fresh chosen (List.mem_of_find?_eq_some found)) positive
  · exact zero

theorem plain_of_daemon_search (small : file.length < 2 ^ 63) (names : strtab file < file.length)
    (exact_notes : ∀ index < (ehdrAt file).eShnum, Reached file index → ExactNotes file index)
    (bounded : ∀ index < (ehdrAt file).eShnum, headerAt file index + 40 < 2 ^ 64) {remaining : Nat}
    (rest : index + remaining = (ehdrAt file).eShnum) (reached : Reached file index) {result : List UInt8}
    (ended : Daemon.ElfBuildId.searchSections (mapFile file) file.length (ehdrAt file) (strtab file) remaining index
      (daemonText file index).1 (daemonText file index).2 = .ok result) :
    ∀ later, index ≤ later → later < (ehdrAt file).eShnum → Reached file later → Plain file (mapFile file).length later := by
  induction remaining generalizing index with
  | zero =>
    intro later after before
    omega
  | succ remaining ih =>
    intro later after before reachedLater
    have here : index < (ehdrAt file).eShnum := by omega
    rw [Daemon.ElfBuildId.searchSections] at ended
    obtain ⟨shdr, read, ended⟩ := bind_ok.mp ended
    have header := inside_of_daemon_readShdr (bounded index here) read
    rw [daemon_readShdr small header] at read
    rw [← Except.ok.inj read] at ended
    obtain ⟨visit, visited, ended⟩ := bind_ok.mp ended
    have plain := plain_of_daemon_visit small names (exact_notes index here reached) header daemonText_fresh visited
    rw [daemon_visit small names plain daemonText_state] at visited
    rcases Nat.eq_or_lt_of_le after with same | further
    · exact same ▸ plain
    · have noId : buildIdOf file index = none := reachedLater index further
      rw [noId] at visited
      rw [← Except.ok.inj visited] at ended
      exact ih (by omega) (reached.next noId) ended later further before reachedLater

theorem headers_of_tool_search {remaining : Nat} (rest : index + remaining = (ehdrAt file).eShnum) (reached : Reached file index)
    {result : Option (List UInt8)}
    (ended : Tools.ElfBuildId.searchSections file (ehdrAt file).eShoff (ehdrAt file).eShentsize (ehdrAt file).is64 (strtab file)
      remaining index (toolText file index) = .ok result) :
    ∀ later, index ≤ later → later < (ehdrAt file).eShnum → Reached file later → headerEnd file later ≤ file.length := by
  induction remaining generalizing index with
  | zero =>
    intro later after before
    omega
  | succ remaining ih =>
    intro later after before reachedLater
    rw [Tools.ElfBuildId.searchSections] at ended
    obtain ⟨fields, read, ended⟩ := Raising.bind_ok.mp ended
    have header := inside_of_tool_readShdr read
    rw [tool_readShdr header] at read
    rw [← Except.ok.inj read] at ended
    dsimp only at ended
    rw [tool_visit, Python.ok_bind] at ended
    rcases Nat.eq_or_lt_of_le after with same | further
    · exact same ▸ header
    · have noId : buildIdOf file index = none := reachedLater index further
      rw [noId] at ended
      exact ih (by omega) (reached.next noId) ended later further before reachedLater

end Sections

section Fallback
variable {file : Buffer} {index : Nat}

theorem text_bounded {text : Nat × Nat} (member : text ∈ textsBefore file index) : text.1 < 2 ^ 64 := by
  obtain ⟨section_index, _, found⟩ := List.mem_filterMap.mp member
  rw [textOf_eq_some found]
  unfold sectionAt
  split
  next => exact unsignedAt_lt _ _ 8
  next => exact Nat.lt_trans (unsignedAt_lt _ _ 4) (by decide)

theorem daemonFallback_goesOn {text : Nat × Nat} (positive : text.1 ≠ 0) (goesOn : ¬ GivesUp file text) :
    daemonFallback file text = Daemon.ElfBuildId.xorTextSection (mapFile file) text.1 text.2 :=
  if_neg (not_or.mpr ⟨positive, goesOn⟩)

theorem mapped_of_fallback (small : file.length < 2 ^ 63) {text : Nat × Nat} {bid : List UInt8} (positive : text.1 ≠ 0)
    (bounded : text.1 < 2 ^ 64) (goesOn : ¬ GivesUp file text) (ended : daemonFallback file text = .ok bid) :
    text.1 + 16 * ((min text.2 4096 + 15) / 16) ≤ (mapFile file).length := by
  rw [daemonFallback_goesOn positive goesOn] at ended
  exact inside_of_xorTextSection small bounded (fun empty => goesOn (Or.inl empty)) ended

theorem givesUp_of_fallback (small : file.length < 2 ^ 63) {text : Nat × Nat} (positive : text.1 ≠ 0) (bounded : text.1 < 2 ^ 64)
    (nothing : daemonFallback file text = .ok []) : GivesUp file text := by
  by_contra goesOn
  have mapped := mapped_of_fallback small positive bounded goesOn nothing
  rw [daemonFallback_goesOn positive goesOn, xorTextSection_eq small mapped] at nothing
  exact columns_ne_nil _ _ (Except.ok.inj nothing)

/-- The first text lies at an offset that the daemon takes for one, or has nothing in it. -/
def TextPlaced (file : Buffer) : Prop :=
  ∀ first, (textsBefore file (ehdrAt file).eShnum).head? = some first → first.1 = 0 → first.2 = 0

theorem chosen_givesUp (small : file.length < 2 ^ 63) (nothing : daemonFallback file (daemonText file index) = .ok [])
    {chosen : Nat × Nat} (found : (textsBefore file index).find? (·.1 ≠ 0) = some chosen) : GivesUp file chosen := by
  have positive : chosen.1 ≠ 0 := by simpa using List.find?_some found
  rcases daemonText_eq file index with ⟨other, same, kept⟩ | ⟨missing, _⟩
  · rw [found] at same
    rw [kept, ← Option.some.inj same] at nothing
    exact givesUp_of_fallback small positive (text_bounded (List.mem_of_find?_eq_some found)) nothing
  · rw [found] at missing
    cases missing

theorem textsAlike_of_fallback (small : file.length < 2 ^ 63) (placed : TextPlaced file) {bid : List UInt8}
    (daemon : daemonFallback file (daemonText file (ehdrAt file).eShnum) = .ok bid)
    (tool : toolFallback file (toolText file (ehdrAt file).eShnum) = if bid = [] then none else some bid) :
    TextsAlike file (textsBefore file (ehdrAt file).eShnum) := by
  have chosen_nothing := @chosen_givesUp file (ehdrAt file).eShnum small
  have kept := daemonText_eq file (ehdrAt file).eShnum
  have bounded := @text_bounded file (ehdrAt file).eShnum
  rw [toolText_eq] at tool
  unfold TextPlaced at placed
  cases seen : textsBefore file (ehdrAt file).eShnum with
  | nil => trivial
  | cons first later =>
    rw [seen] at chosen_nothing kept bounded tool placed
    obtain ⟨textOff, textSize⟩ := first
    by_cases start : textOff = 0
    · have empty := placed _ rfl start
      rw [TextsAlike, if_pos start]
      refine ⟨empty, fun chosen found => chosen_nothing ?_ ?_⟩
      · have none : toolFallback file (((textOff, textSize) :: later).head?) = none := if_pos empty
        rw [none] at tool
        by_cases nothing : bid = []
        · rw [← nothing]
          exact daemon
        · rw [if_neg nothing] at tool
          cases tool
      · rw [List.find?_cons_of_neg (by simpa using start)]
        exact found
    · rw [TextsAlike, if_neg start]
      by_cases empty : textSize = 0
      · exact Or.inl empty
      · have same : daemonText file (ehdrAt file).eShnum = (textOff, textSize) := by
          rw [List.find?_cons_of_pos (by simpa using start)] at kept
          rcases kept with ⟨chosen, found, same⟩ | ⟨impossible, _⟩
          · rw [same, ← Option.some.inj found]
          · cases impossible
        have hash : toolFallback file (((textOff, textSize) :: later).head?) = some (Tools.ElfBuildId.xorTextHash file textOff textSize) :=
          if_neg empty
        have nonempty : bid ≠ [] := by
          rintro rfl
          rw [hash] at tool
          cases tool
        have goesOn : ¬ GivesUp file (textOff, textSize) := by
          intro givesUp
          rw [same, daemonFallback_givesUp (Or.inr givesUp)] at daemon
          exact nonempty (Except.ok.inj daemon).symm
        rw [same] at daemon
        refine Or.inr ⟨Nat.le_of_not_lt fun beyond => goesOn (Or.inr beyond), ?_⟩
        exact mapped_of_fallback small start (bounded List.mem_cons_self) goesOn daemon

end Fallback

/-- No sum wraps where the daemon forms one, and the offset 0 of a text stands for nothing. -/
structure Exact (file : Buffer) : Prop where
  table : sizeT (tableEnd file) ≤ file.length → tableEnd file ≤ file.length
  notes : ∀ index < (ehdrAt file).eShnum, Reached file index → ExactNotes file index
  text : TextPlaced file

section Converse
variable {file : Buffer} {bid : List UInt8}

theorem header_small (small : file.length < 2 ^ 63) (start : (ehdrAt file).eShoff ≤ file.length) {index : Nat} (before : index < 2 ^ 16) :
    headerAt file index + 40 < 2 ^ 64 := by
  have entry : (ehdrAt file).eShentsize < 2 ^ 16 := by
    unfold ehdrAt
    split <;> exact unsignedAt_lt _ _ 2
  have area : index * (ehdrAt file).eShentsize < 2 ^ 16 * 2 ^ 16 := Nat.mul_lt_mul'' before entry
  unfold headerAt
  omega

theorem header_bounded (table : tableEnd file ≤ file.length) (small : file.length < 2 ^ 63) {index : Nat} (before : index < 2 ^ 16) :
    headerAt file index + 40 < 2 ^ 64 :=
  header_small small (Nat.le_trans (Nat.le_add_right _ _) table) before

theorem counts_bounded (file : Buffer) : (ehdrAt file).eShnum < 2 ^ 16 ∧ (ehdrAt file).eShstrndx < 2 ^ 16 := by
  unfold ehdrAt
  split <;> exact ⟨unsignedAt_lt _ _ 2, unsignedAt_lt _ _ 2⟩

theorem reached_zero (file : Buffer) : Reached file 0 := fun earlier before => absurd before (Nat.not_lt_zero earlier)

/-- What the tool's answer says of its search. -/
theorem tool_answered (valid : Recognised file)
    (given : ¬ ((ehdrAt file).eShoff = 0 ∨ (ehdrAt file).eShnum = 0 ∨ (ehdrAt file).eShstrndx = 0)) (table : tableEnd file ≤ file.length)
    {answer : Option (List UInt8)} (tool : Tools.ElfBuildId.computeElfBuildId file = .ok answer) :
    headerEnd file (ehdrAt file).eShstrndx ≤ file.length ∧ (strtab file = 0 → answer = none) ∧
      (strtab file ≠ 0 →
        (∀ index < (ehdrAt file).eShnum, Reached file index → headerEnd file index ≤ file.length) ∧
          answer = (firstIdFrom file 0 (ehdrAt file).eShnum).or (toolFallback file (toolText file (ehdrAt file).eShnum))) := by
  have read := tool
  rw [tool_recognised valid, if_neg given, if_neg (Nat.not_lt_of_le table)] at read
  obtain ⟨offset, located, _⟩ := Raising.bind_ok.mp read
  obtain ⟨fields, shdr, _⟩ := Raising.bind_ok.mp located
  have names := inside_of_tool_readShdr shdr
  refine ⟨names, ?_, ?_⟩
  · intro start
    rw [tool_located valid given table names, if_neg (not_not.mpr start)] at tool
    exact (Except.ok.inj tool).symm
  · intro later
    have ended := tool
    rw [tool_located valid given table names, if_pos later] at ended
    have headers := headers_of_tool_search (Nat.zero_add _) (reached_zero file) ended
    refine ⟨fun index before reached => headers index (Nat.zero_le index) before reached, ?_⟩
    rw [tool_located_searched valid given table names later fun index before reached => headers index (Nat.zero_le index) before reached]
      at tool
    exact (Except.ok.inj tool).symm

/-- What the daemon's answer says of its search. -/
theorem daemon_answered (small : file.length < 2 ^ 63) (valid : Recognised file) (large : 64 ≤ file.length) (exact_sums : Exact file)
    (given : ¬ ((ehdrAt file).eShoff = 0 ∨ (ehdrAt file).eShstrndx = 0 ∨ file.length < sizeT (tableEnd file)))
    (daemon : Daemon.ElfBuildId.computeElfBuildId (mapFile file) file.length = .ok bid) :
    headerEnd file (ehdrAt file).eShstrndx ≤ (mapFile file).length ∧
      (strtab file < file.length →
        PlainTable file (mapFile file).length ∧ daemonAnswer file 0 (ehdrAt file).eShnum = .ok bid) := by
  have table := exact_sums.table (by omega)
  have counts := counts_bounded file
  have read := daemon
  rw [daemon_recognised small valid large, if_neg given] at read
  obtain ⟨shdr, names, _⟩ := bind_ok.mp read
  have names := inside_of_daemon_readShdr (header_bounded table small counts.2) names
  refine ⟨names, ?_⟩
  intro inside
  have ended := daemon
  rw [daemon_located small valid large given names, if_neg (Nat.not_le_of_lt inside)] at ended
  have plain : PlainTable file (mapFile file).length := by
    intro index before reached
    exact plain_of_daemon_search small inside exact_sums.notes
      (fun other below => header_bounded table small (by omega)) (Nat.zero_add _) (reached_zero file) ended index (Nat.zero_le index)
      before reached
  refine ⟨plain, ?_⟩
  rw [← daemon_searched small valid large given names inside plain (Nat.le_refl _)]
  exact daemon

theorem nothing_of_or (none : Option.none = (firstIdFrom file 0 (ehdrAt file).eShnum).or
    (toolFallback file (toolText file (ehdrAt file).eShnum))) :
    (∀ index < (ehdrAt file).eShnum, buildIdOf file index = Option.none) ∧
      toolFallback file (toolText file (ehdrAt file).eShnum) = Option.none := by
  obtain ⟨noId, noText⟩ := Option.or_eq_none_iff.mp none.symm
  exact ⟨of_firstIdFrom_eq_none noId, noText⟩

theorem fruitless_of_nothing
    (headers : ∀ index < (ehdrAt file).eShnum, Reached file index → headerEnd file index ≤ file.length)
    (none : Option.none = (firstIdFrom file 0 (ehdrAt file).eShnum).or (toolFallback file (toolText file (ehdrAt file).eShnum))) :
    Fruitless file := by
  obtain ⟨noId, noText⟩ := nothing_of_or none
  refine ⟨fun index before => headers index before fun earlier sooner => noId earlier (by omega), noId, ?_⟩
  intro first found
  rw [toolText_eq, found] at noText
  by_contra some
  exact absurd ((if_neg some).symm.trans noText) (Option.some_ne_none _)

theorem daemonAnswer_nothing (nothing : daemonAnswer file 0 (ehdrAt file).eShnum = .ok []) :
    (∀ index < (ehdrAt file).eShnum, buildIdOf file index = none) ∧
      daemonFallback file (daemonText file (ehdrAt file).eShnum) = .ok [] := by
  unfold daemonAnswer at nothing
  cases found : firstIdFrom file 0 (ehdrAt file).eShnum with
  | some bid =>
    rw [found] at nothing
    exact absurd (Except.ok.inj nothing) (firstIdFrom_ne_nil found)
  | none =>
    rw [found] at nothing
    exact ⟨of_firstIdFrom_eq_none found, nothing⟩

theorem alike_searched (small : file.length < 2 ^ 63) (exact_sums : Exact file) (located : Located file) (later : strtab file ≠ 0)
    (inside : strtab file < file.length)
    (headers : ∀ index < (ehdrAt file).eShnum, Reached file index → headerEnd file index ≤ file.length)
    (plain : PlainTable file (mapFile file).length) (daemon : daemonAnswer file 0 (ehdrAt file).eShnum = .ok bid)
    (tool : (if bid = [] then none else some bid) =
      (firstIdFrom file 0 (ehdrAt file).eShnum).or (toolFallback file (toolText file (ehdrAt file).eShnum))) : Alike file := by
  have inFile : PlainTable file file.length := by
    intro index before reached
    have mapped := plain index before reached
    exact ⟨headers index before reached, mapped.noteName, mapped.textName, mapped.notes⟩
  refine .searched located later inside inFile fun noId => ?_
  have noFirst : firstIdFrom file 0 (ehdrAt file).eShnum = none := firstIdFrom_eq_none fun index _ before => noId index (by omega)
  rw [daemonAnswer, noFirst] at daemon
  rw [noFirst, Option.none_or] at tool
  exact textsAlike_of_fallback small exact_sums.text daemon tool.symm

/-- With a section table and sections both programs search. -/
theorem alike_of_searches (small : file.length < 2 ^ 63) (exact_sums : Exact file) (valid : Recognised file)
    (given : ¬ ((ehdrAt file).eShoff = 0 ∨ (ehdrAt file).eShnum = 0 ∨ (ehdrAt file).eShstrndx = 0))
    (fits : sizeT (tableEnd file) ≤ file.length)
    (daemon : Daemon.ElfBuildId.computeElfBuildId (mapFile file) file.length = .ok bid)
    (tool : Tools.ElfBuildId.computeElfBuildId file = .ok (if bid = [] then none else some bid)) : Alike file := by
  have table := exact_sums.table fits
  obtain ⟨names, toolAtStart, toolLater⟩ := tool_answered valid given table tool
  by_cases short : file.length < 64
  · have nothing : bid = [] := (Except.ok.inj ((daemon_absent small (Or.inr (Or.inl short))).symm.trans daemon)).symm
    refine .short short names ?_
    by_cases start : strtab file = 0
    · exact Or.inl start
    · obtain ⟨headers, answer⟩ := toolLater start
      rw [if_pos nothing] at answer
      exact Or.inr (fruitless_of_nothing headers answer)
  · have located : Located file := ⟨Nat.le_of_not_lt short, table, names⟩
    obtain ⟨_, searched⟩ := daemon_answered small valid located.large exact_sums (by omega) daemon
    by_cases inside : strtab file < file.length
    · obtain ⟨plain, answer⟩ := searched inside
      by_cases start : strtab file = 0
      · have nothing : bid = [] := by
          by_contra some
          have none := toolAtStart start
          rw [if_neg some] at none
          cases none
        rw [nothing] at answer
        obtain ⟨noId, noText⟩ := daemonAnswer_nothing answer
        exact .namesAtStart located start plain noId fun chosen found => chosen_givesUp small noText found
      · obtain ⟨headers, same⟩ := toolLater start
        exact alike_searched small exact_sums located start inside headers plain answer same
    · have later : strtab file ≠ 0 := by
        have large := located.large
        omega
      obtain ⟨headers, _⟩ := toolLater later
      have nameless (index : Nat) : buildIdOf file index = none := by
        refine if_neg fun note => ?_
        have before : nameOffset file index < file.length := note.1
        unfold nameOffset at before
        omega
      exact .namesOutside located (Nat.le_of_not_lt inside) fun index before => headers index before fun earlier _ => nameless earlier

end Converse

/-- Files that both programs take alike get one answer; and where no sum wraps, no others do. -/
theorem same_answer_iff_alike (file : FileContent) :
    (Alike file.bytes → SameAnswer file) ∧ (Exact file.bytes → SameAnswer file → Alike file.bytes) := by
  refine ⟨same_answer_of_alike file, ?_⟩
  obtain ⟨file, small⟩ := file
  intro exact_sums ⟨bid, daemon, tool⟩
  by_cases valid : Recognised file
  · by_cases refused : (ehdrAt file).eShoff = 0 ∨ (ehdrAt file).eShstrndx = 0
    · exact .noTable refused
    · by_cases fits : sizeT (tableEnd file) ≤ file.length
      · by_cases none : (ehdrAt file).eShnum = 0
        · have given : ¬ ((ehdrAt file).eShoff = 0 ∨ (ehdrAt file).eShstrndx = 0 ∨ file.length < sizeT (tableEnd file)) := by
            rintro (shoff | strndx | beyond)
            · exact refused (Or.inl shoff)
            · exact refused (Or.inr strndx)
            · exact Nat.not_le_of_lt beyond fits
          exact .noSections none fun large => (daemon_answered small valid large exact_sums given daemon).1
        · exact alike_of_searches small exact_sums valid (by tauto) fits daemon tool
      · exact .tableOutside (Nat.lt_of_not_le fits)
  · exact .unrecognised valid

section Files

def shdr32 (shName shType shOffset shSize : Nat) : Buffer :=
  le32 shName ++ le32 shType ++ List.replicate 8 0 ++ le32 shOffset ++ le32 shSize ++ List.replicate 16 0

/-- A 32-bit file of two sections, their headers at `eShoff`; its second section holds the names. -/
def elf32 (eShoff : Nat) (eShstrndx : UInt8) (body : Buffer) : Buffer :=
  0x7F :: ascii "ELF" ++ 1 :: List.replicate 27 0 ++ le32 eShoff ++ List.replicate 10 0 ++ [40, 0, 2, 0, eShstrndx, 0] ++ body

/-- The text ends past the file. -/
def textPastEnd : Buffer :=
  elf32 64 1 (ascii ".text" ++ List.replicate 7 0 ++ shdr32 0 1 100 100 ++ shdr32 5 3 52 6)

/-- The name size of the note wraps when it is padded. -/
def largeName : Buffer :=
  elf32 72 1 (ascii ".note.gnu.build-id" ++ List.replicate 2 0 ++ shdr32 0 7 152 16 ++ shdr32 18 3 52 19 ++
    (le32 0xFFFFFFFE ++ le32 4 ++ le32 3 ++ [1, 2, 3, 4]))

/-- The names are at offset 0, and one of them is that of a text. -/
def zeroNames : Buffer :=
  elf32 64 1 (ascii ".text" ++ List.replicate 7 0 ++ shdr32 52 1 100 16 ++ shdr32 57 3 0 144)

/-- The header of the names is not in the file. -/
def noNames : Buffer :=
  elf32 64 9 (ascii ".text" ++ List.replicate 7 0 ++ shdr32 0 1 100 16 ++ shdr32 5 3 52 6)

theorem answers_differ :
    (Daemon.ElfBuildId.computeElfBuildId (mapFile textPastEnd) textPastEnd.length = .ok [] ∧
      (Tools.ElfBuildId.computeElfBuildId textPastEnd).toOption.join.isSome = true) ∧
    (Daemon.ElfBuildId.computeElfBuildId (mapFile largeName) largeName.length = .ok [1, 2, 3, 4] ∧
      Tools.ElfBuildId.computeElfBuildId largeName = .ok none) ∧
    ((Daemon.ElfBuildId.computeElfBuildId (mapFile zeroNames) zeroNames.length).toOption.map List.length = some 16 ∧
      Tools.ElfBuildId.computeElfBuildId zeroNames = .ok none) ∧
    Tools.ElfBuildId.computeElfBuildId noNames = .error .structError ∧ ¬ ∀ file, SameAnswer file := by
  have daemon : Daemon.ElfBuildId.computeElfBuildId (mapFile textPastEnd) textPastEnd.length = .ok [] := by decide +kernel
  have tool : (Tools.ElfBuildId.computeElfBuildId textPastEnd).toOption.join.isSome = true := by decide +kernel
  refine ⟨⟨daemon, tool⟩, ⟨by decide +kernel, by decide +kernel⟩, ⟨by decide +kernel, by decide +kernel⟩, by decide +kernel, ?_⟩
  intro all
  obtain ⟨bid, given, answer⟩ := all ⟨textPastEnd, by decide +kernel⟩
  have nothing : [] = bid := Except.ok.inj (daemon.symm.trans given)
  rw [if_pos nothing.symm] at answer
  rw [answer] at tool
  cases tool

/-- The text lies inside the file. -/
def textInside : Buffer :=
  elf32 64 1 (ascii ".text" ++ List.replicate 7 0 ++ shdr32 0 1 100 16 ++ shdr32 5 3 52 6)

theorem text_inside_same : SameAnswer ⟨textInside, by decide +kernel⟩ := by
  apply (same_answer_iff_alike ⟨textInside, by decide +kernel⟩).1
  have sections : (ehdrAt textInside).eShnum = 2 := by decide +kernel
  refine .searched ⟨by decide +kernel, by decide +kernel, by decide +kernel⟩ (by decide +kernel) (by decide +kernel) ?_ fun _ => ?_
  · intro index before _
    rw [sections] at before
    have kinds : (sectionAt textInside 0).shType = 1 ∧ (sectionAt textInside 1).shType = 3 := by decide +kernel
    rcases Nat.lt_succ_iff_lt_or_eq.mp before with first | rfl
    · rw [Nat.lt_one_iff.mp first]
      have noNote : (sectionAt textInside 0).shType ≠ shtNote := by
        rw [kinds.1]
        decide
      exact ⟨by decide +kernel, fun _ note => absurd note noNote, fun _ _ _ => by decide +kernel, fun _ note => absurd note noNote⟩
    · have noNote : (sectionAt textInside 1).shType ≠ shtNote := by
        rw [kinds.2]
        decide
      have noText : (sectionAt textInside 1).shType ≠ shtProgbits := by
        rw [kinds.2]
        decide
      exact ⟨by decide +kernel, fun _ note => absurd note noNote, fun _ text => absurd text noText, fun _ note => absurd note noNote⟩
  · rw [sections]
    have texts : textsBefore textInside 2 = [(100, 16)] := by decide +kernel
    rw [texts, TextsAlike, if_neg (by decide)]
    exact Or.inr ⟨by decide +kernel, by decide +kernel⟩

end Files

end Crashomon.Proofs.ElfDivergence
