import Mathlib.Logic.Basic
import Mathlib.Tactic.SplitIfs
import RoutedExperts.Command.Program

/-!
# Which source decides an option

Options come from a stack of sources, each of which may leave some of them open. `RunOptions.get`
reads any of the fifteen options by its key, so one equation says what merging does
(`RunOptions.get_merge`), and over a whole stack the last source that gives an option decides it
(`RunOptions.settled_foldl_merge`). A run has settings when its workload is known and it has
something to do, and then each setting comes from the command line, from the file or from the
defaults, in this order (`RunSettings.prefers_withDefaults`).
-/

namespace RoutedExperts

namespace RunOptions

/-! ### Options by key -/

/-- The options of a run. -/
inductive Key where
  | mode | tokens | columns | rows | intermediate | experts | chosen | bits | groupSize | block
  | iterations | warmup | seed | tolerance | logLevel
  deriving DecidableEq, Repr

/-- What an option is given as. -/
def Key.Content : Key → Type
  | mode | logLevel => String
  | groupSize => Int
  | tolerance => Float32
  | _ => Nat

/-- The option of a key. -/
def get (o : RunOptions) : (key : Key) → Option key.Content
  | .mode => o.mode
  | .tokens => o.tokens
  | .columns => o.columns
  | .rows => o.rows
  | .intermediate => o.intermediate
  | .experts => o.experts
  | .chosen => o.chosen
  | .bits => o.bits
  | .groupSize => o.groupSize
  | .block => o.block
  | .iterations => o.iterations
  | .warmup => o.warmup
  | .seed => o.seed
  | .tolerance => o.tolerance
  | .logLevel => o.logLevel

/-- The keys name all that options consist of. -/
theorem ext_get {a b : RunOptions} (h : ∀ key, a.get key = b.get key) : a = b := by
  obtain ⟨⟩ := a
  obtain ⟨⟩ := b
  rw [RunOptions.mk.injEq]
  exact ⟨h .mode, h .tokens, h .columns, h .rows, h .intermediate, h .experts, h .chosen, h .bits,
    h .groupSize, h .block, h .iterations, h .warmup, h .seed, h .tolerance, h .logLevel⟩

/-- Of two sources merged, the later one decides what it gives. -/
theorem get_merge (base later : RunOptions) (key : Key) :
    (base.merge later).get key = (later.get key).or (base.get key) := by
  cases key <;> rfl

/-- The empty source leaves every option open. -/
theorem get_empty (key : Key) : ({} : RunOptions).get key = none := by
  cases key <;> rfl

/-! ### Stacks of sources -/

/-- Sources can be merged in any grouping. -/
theorem merge_assoc (a b c : RunOptions) : (a.merge b).merge c = a.merge (b.merge c) := by
  apply ext_get
  intro key
  simp only [get_merge, Option.or_assoc]

/-- Merging the empty source over another changes nothing. -/
theorem merge_empty (a : RunOptions) : a.merge {} = a := by
  apply ext_get
  intro key
  rw [get_merge, get_empty, Option.none_or]

/-- Merging a source over the empty one gives the source. -/
theorem empty_merge (a : RunOptions) : merge {} a = a := by
  apply ext_get
  intro key
  rw [get_merge, get_empty, Option.or_none]

/-- What an option is over a stack of sources: given as the last source that gives it does, or left
open where every source leaves it open. -/
def Settled (sources : List RunOptions) (key : Key) : Option key.Content → Prop
  | none => ∀ o ∈ sources, o.get key = none
  | some v => ∃ earlier o later, sources = earlier ++ o :: later ∧ o.get key = some v ∧
      ∀ o' ∈ later, o'.get key = none

/-- One more source decides what it gives, and leaves the rest as it was. -/
theorem Settled.append {sources : List RunOptions} {key : Key} {v : Option key.Content}
    (h : Settled sources key v) (o : RunOptions) :
    Settled (sources ++ [o]) key ((o.get key).or v) := by
  cases hget : o.get key with
  | some w =>
    exact ⟨sources, o, [], rfl, hget, fun _ hmem => absurd hmem List.not_mem_nil⟩
  | none =>
    rw [Option.none_or]
    cases v with
    | none =>
      intro o' hmem
      rcases List.mem_append.mp hmem with hmem | hmem
      · exact h o' hmem
      · rwa [List.mem_singleton.mp hmem]
    | some w =>
      obtain ⟨earlier, last, later, rfl, hlast, hopen⟩ := h
      refine ⟨earlier, last, later ++ [o],
        by simp only [List.append_assoc, List.cons_append], hlast,
        ?_⟩
      intro o' hmem
      rcases List.mem_append.mp hmem with hmem | hmem
      · exact hopen o' hmem
      · rwa [List.mem_singleton.mp hmem]

/-- One source settles every option as it gives it. -/
theorem settled_singleton (o : RunOptions) (key : Key) : Settled [o] key (o.get key) := by
  cases hget : o.get key with
  | none =>
    intro o' hmem
    rwa [List.mem_singleton.mp hmem]
  | some w => exact ⟨[], o, [], rfl, hget, fun _ hmem => absurd hmem List.not_mem_nil⟩

/-- Merging the rest of a stack keeps every option settled. -/
theorem Settled.foldl_merge {sources : List RunOptions} {key : Key} {base : RunOptions}
    (h : Settled sources key (base.get key)) (rest : List RunOptions) :
    Settled (sources ++ rest) key ((rest.foldl merge base).get key) := by
  induction rest generalizing sources base with
  | nil => rwa [List.append_nil]
  | cons o rest ih =>
    have hstep : Settled (sources ++ [o]) key ((base.merge o).get key) := by
      rw [get_merge]
      exact h.append o
    have hrest := ih hstep
    rwa [List.append_assoc, List.singleton_append] at hrest

/-- Sources merged from left to right settle every option. -/
theorem settled_foldl_merge (base : RunOptions) (rest : List RunOptions) (key : Key) :
    Settled (base :: rest) key ((rest.foldl merge base).get key) :=
  (settled_singleton base key).foldl_merge rest

/-! ### Flags -/

/-- The name of an option on the command line. -/
def Key.flag : Key → String
  | mode => "mode"
  | tokens => "num-tokens"
  | columns => "size-n"
  | rows => "size-k"
  | intermediate => "intermediate-size"
  | experts => "num-experts"
  | chosen => "topk"
  | bits => "bits"
  | groupSize => "group-size"
  | block => "moe-block-size"
  | iterations => "iterations"
  | warmup => "warmup"
  | seed => "seed"
  | tolerance => "tolerance"
  | logLevel => "log-level"

/-- Options with one of them given. -/
def set (o : RunOptions) : (key : Key) → key.Content → RunOptions
  | .mode, v => { o with mode := some v }
  | .tokens, v => { o with tokens := some v }
  | .columns, v => { o with columns := some v }
  | .rows, v => { o with rows := some v }
  | .intermediate, v => { o with intermediate := some v }
  | .experts, v => { o with experts := some v }
  | .chosen, v => { o with chosen := some v }
  | .bits, v => { o with bits := some v }
  | .groupSize, v => { o with groupSize := some v }
  | .block, v => { o with block := some v }
  | .iterations, v => { o with iterations := some v }
  | .warmup, v => { o with warmup := some v }
  | .seed, v => { o with seed := some v }
  | .tolerance, v => { o with tolerance := some v }
  | .logLevel, v => { o with logLevel := some v }

/-- A given option is given as just that. -/
theorem get_set_self (o : RunOptions) (key : Key) (v : key.Content) :
    (o.set key v).get key = some v := by
  cases key <;> rfl

/-- Giving one option leaves every other as it was. -/
theorem get_set_of_ne (o : RunOptions) {key other : Key} (h : other ≠ key) (v : key.Content) :
    (o.set key v).get other = o.get other := by
  cases key <;> cases other <;> first | rfl | exact absurd rfl h

/-- Options with one of them given are told by their other options and the one given. -/
theorem set_eq_iff (o o' : RunOptions) (key : Key) (v : key.Content) :
    o.set key v = o' ↔ o'.get key = some v ∧ ∀ other, other ≠ key → o'.get other = o.get other := by
  constructor
  · rintro rfl
    exact ⟨get_set_self o key v, fun _ hne => get_set_of_ne o hne v⟩
  · rintro ⟨hself, hother⟩
    apply ext_get
    intro other
    by_cases heq : other = key
    · subst heq
      rw [get_set_self, hself]
    · rw [get_set_of_ne o heq, hother other heq]

/-- What an option is given as by a text on the command line, if the text spells anything: one of
two names, any text, or a number in the range of the option. -/
def Key.read : (key : Key) → String → Option key.Content
  | .mode => fun text => if text = "gemm" ∨ text = "fused" then some text else none
  | .bits => fun text => (Literal.intBetween? 0 (twoTo 32 - 1) text).map Int.toNat
  | .groupSize => Literal.intBetween? (-twoTo 31) (twoTo 31 - 1)
  | .tolerance => Literal.single?
  | .logLevel => some
  | .tokens | .columns | .rows | .intermediate | .experts | .chosen | .block | .iterations
  | .warmup | .seed => Literal.natBelow? (twoTo 64)

end RunOptions

namespace Flag

open RunOptions (Key)

/-- A flag that reads its text accepts what its reader does, and sets what the reader read. -/
theorem reading_eq_ok_iff {α : Type} (name text : String) (read : String → Option α)
    (set : α → RunOptions → RunOptions) (o o' : RunOptions) :
    reading name read set text o = .ok o' ↔ ∃ a, read text = some a ∧ set a o = o' := by
  unfold reading
  cases read text with
  | none => exact iff_of_false nofun fun ⟨_, h, _⟩ => nomatch h
  | some a =>
    constructor
    · rintro ⟨⟩
      exact ⟨a, rfl, rfl⟩
    · rintro ⟨_, ⟨⟩, rfl⟩
      rfl

/-- The workload is set to one of its two names. -/
theorem assignMode_eq_ok_iff (text : String) (o o' : RunOptions) :
    assignMode text o = .ok o' ↔ ∃ v, Key.mode.read text = some v ∧ o.set .mode v = o' := by
  have hname : (Mode.ofName? text).isSome = true ↔ text = "gemm" ∨ text = "fused" := by
    unfold Mode.ofName?
    split_ifs with hproduct hnetwork
    · exact iff_of_true rfl (.inl hproduct)
    · exact iff_of_true rfl (.inr hnetwork)
    · exact iff_of_false nofun fun h => h.elim hproduct hnetwork
  unfold assignMode
  simp only [hname, Key.read]
  split_ifs with h
  · constructor
    · rintro ⟨⟩
      exact ⟨text, rfl, rfl⟩
    · rintro ⟨_, ⟨⟩, rfl⟩
      rfl
  · exact iff_of_false nofun fun ⟨_, h, _⟩ => nomatch h

/-- Every option has a flag, which takes exactly the texts that spell a value of the option and
gives the option that value. -/
theorem exists_assign_eq_ok_iff (key : Key) : ∃ f, find? key.flag = some f ∧
    ∀ text o o', f.assign text o = .ok o' ↔ ∃ v, key.read text = some v ∧ o.set key v = o' := by
  cases key with
  | mode => exact ⟨_, rfl, assignMode_eq_ok_iff⟩
  | logLevel =>
    refine ⟨_, rfl, fun text o o' => ?_⟩
    constructor
    · rintro ⟨⟩
      exact ⟨text, rfl, rfl⟩
    · rintro ⟨_, ⟨⟩, rfl⟩
      rfl
  | bits =>
    -- the reader gives an integer, of which the option keeps the natural number
    refine ⟨_, rfl, fun text o o' => ?_⟩
    simp only [reading_eq_ok_iff]
    constructor
    · rintro ⟨z, hz, rfl⟩
      exact ⟨z.toNat, Option.map_eq_some_iff.mpr ⟨z, hz, rfl⟩, rfl⟩
    · rintro ⟨_, hread, rfl⟩
      obtain ⟨z, hz, rfl⟩ := Option.map_eq_some_iff.mp hread
      exact ⟨z, hz, rfl⟩
  | _ =>
    refine ⟨_, rfl, fun text o o' => ?_⟩
    dsimp only [size]
    exact reading_eq_ok_iff ..

end Flag

/-! ### Workloads -/

namespace Mode

/-- A workload is found by its own name alone. -/
theorem ofName?_eq_some_iff (name : String) (mode : Mode) :
    ofName? name = some mode ↔ name = mode.name := by
  unfold ofName?
  split_ifs with hproduct hnetwork
  · subst hproduct
    cases mode <;> decide
  · subst hnetwork
    cases mode <;> decide
  · cases mode with
    | product => simp only [Mode.name, hproduct]
    | network => simp only [Mode.name, hnetwork]

/-- A workload is found by its name in any case. -/
theorem parse_eq_ok_iff (name : String) (mode : Mode) :
    parse name = .ok mode ↔ LowerCase.text name = mode.name := by
  rw [← ofName?_eq_some_iff, parse]
  cases ofName? (LowerCase.text name) with
  | none => simp only [reduceCtorEq]
  | some found => simp only [Except.ok.injEq, Option.some.injEq]

end Mode

namespace RunSettings

open RunOptions (Key)

/-! ### Settings -/

/-- The workload of an option that may be left open. -/
def Runs (mode : Mode) : Option String → Prop
  | none => mode = ({} : RunSettings).mode
  | some name => LowerCase.text name = mode.name

/-- An option has a workload exactly if it is open or names one in any case. -/
theorem exists_runs_iff (given : Option String) : (∃ mode, Runs mode given) ↔
    ∀ name, given = some name → LowerCase.text name = "gemm" ∨ LowerCase.text name = "fused" := by
  cases given with
  | none => exact iff_of_true ⟨_, rfl⟩ nofun
  | some name =>
    constructor
    · rintro ⟨mode, hruns⟩ _ ⟨⟩
      cases mode with
      | product => exact .inl hruns
      | network => exact .inr hruns
    · intro h
      rcases h name rfl with hname | hname
      · exact ⟨.product, hname⟩
      · exact ⟨.network, hname⟩

/-- The settings, unless there is nothing to do. -/
def checked (s : RunSettings) : Except RunError RunSettings :=
  if s.iterations = 0 then .error .noIterations
  else if s.tokens = 0 then .error .noTokens
  else .ok s

/-- Settings pass the checks exactly if there are iterations and tokens. -/
theorem checked_eq_ok_iff (s t : RunSettings) :
    checked s = .ok t ↔ s = t ∧ t.iterations ≠ 0 ∧ t.tokens ≠ 0 := by
  unfold checked
  split_ifs with hiterations htokens
  · exact iff_of_false nofun fun h => h.2.1 (h.1 ▸ hiterations)
  · exact iff_of_false nofun fun h => h.2.2 (h.1 ▸ htokens)
  · constructor
    · rintro ⟨⟩
      exact ⟨rfl, hiterations, htokens⟩
    · rintro ⟨rfl, -, -⟩
      rfl

/-- Options of a known workload have the settings with defaults, if these pass the checks. -/
theorem resolve_of_runs {o : RunOptions} {mode : Mode} (h : Runs mode o.mode) :
    resolve o = checked (withDefaults mode o) := by
  unfold resolve
  cases hmode : o.mode with
  | none =>
    rw [hmode] at h
    subst h
    rfl
  | some name =>
    rw [hmode] at h
    simp only [(Mode.parse_eq_ok_iff name mode).mpr h]
    rfl

/-- Options of no known workload are refused. -/
theorem resolve_of_not_runs {o : RunOptions} (h : ¬ ∃ mode, Runs mode o.mode) :
    ∃ e, resolve o = .error e := by
  unfold resolve
  cases hmode : o.mode with
  | none =>
    rw [hmode] at h
    exact absurd ⟨_, rfl⟩ h
  | some name =>
    rw [hmode] at h
    cases hparse : Mode.parse name with
    | ok mode => exact absurd ⟨mode, (Mode.parse_eq_ok_iff name mode).mp hparse⟩ h
    | error e =>
      simp only [hparse]
      exact ⟨e, rfl⟩

/-- Options have settings when their workload is known and there is something to do. -/
theorem resolve_eq_ok_iff (o : RunOptions) (s : RunSettings) :
    resolve o = .ok s ↔ ∃ mode, Runs mode o.mode ∧ withDefaults mode o = s ∧
      s.iterations ≠ 0 ∧ s.tokens ≠ 0 := by
  constructor
  · intro h
    by_cases hruns : ∃ mode, Runs mode o.mode
    · obtain ⟨mode, hruns⟩ := hruns
      rw [resolve_of_runs hruns, checked_eq_ok_iff] at h
      exact ⟨mode, hruns, h⟩
    · obtain ⟨e, he⟩ := resolve_of_not_runs hruns
      rw [he] at h
      cases h
  · rintro ⟨mode, hruns, h⟩
    rw [resolve_of_runs hruns, checked_eq_ok_iff]
    exact h

/-- Settings that come from the command line where it gives them, from the file where only that
does, and from the defaults elsewhere. -/
structure Prefers (line file : RunOptions) (s : RunSettings) : Prop where
  mode : Runs s.mode (line.mode.or file.mode)
  tokens : s.tokens = (line.tokens.or file.tokens).getD 64
  columns : s.columns = (line.columns.or file.columns).getD 512
  rows : s.rows = (line.rows.or file.rows).getD 512
  intermediate : s.intermediate = (line.intermediate.or file.intermediate).getD 256
  experts : s.experts = (line.experts.or file.experts).getD 8
  chosen : s.chosen = (line.chosen.or file.chosen).getD 2
  bits : s.bits = (line.bits.or file.bits).getD 4
  groupSize : s.groupSize = (line.groupSize.or file.groupSize).getD 128
  block : s.block = line.block.or file.block
  iterations : s.iterations = (line.iterations.or file.iterations).getD 10
  warmup : s.warmup = (line.warmup.or file.warmup).getD 2
  seed : s.seed = (line.seed.or file.seed).getD 0
  tolerance : s.tolerance = (line.tolerance.or file.tolerance).getD 1e-3

/-- The settings of the command line over the file prefer the one to the other and both to the
defaults. -/
theorem prefers_withDefaults {line file : RunOptions} {mode : Mode}
    (h : Runs mode (line.mode.or file.mode)) :
    Prefers line file (withDefaults mode (file.merge line)) where
  mode := h
  tokens := rfl
  columns := rfl
  rows := rfl
  intermediate := rfl
  experts := rfl
  chosen := rfl
  bits := rfl
  groupSize := rfl
  block := Option.or_none
  iterations := rfl
  warmup := rfl
  seed := rfl
  tolerance := rfl

/-- Over any stack of sources, the last one that gives an option decides it, so merging is
associative and the empty source adds nothing. A flag of the command line takes the texts that spell
a value of its option, and gives that option this value and no other option any. The options of the
command line over those of the file have settings exactly if their workload is known and there is
something to do, and then the settings prefer the command line to the file and the file to the
defaults. -/
theorem last_source_decides :
    (∀ (base : RunOptions) (rest : List RunOptions) (key : Key),
      RunOptions.Settled (base :: rest) key ((rest.foldl RunOptions.merge base).get key)) ∧
    (∀ a b c : RunOptions, (a.merge b).merge c = a.merge (b.merge c)) ∧
    (∀ a : RunOptions, a.merge {} = a ∧ RunOptions.merge {} a = a) ∧
    (∀ key : Key, ∃ f, Flag.find? key.flag = some f ∧ ∀ text o o', f.assign text o = .ok o' ↔
      ∃ v, key.read text = some v ∧ o'.get key = some v ∧
        ∀ other, other ≠ key → o'.get other = o.get other) ∧
    ∀ (file : RunOptions) (c : Command),
      ((∃ s, resolve (Program.effective file c) = .ok s) ↔
        (∀ name, c.options.mode.or file.mode = some name →
          LowerCase.text name = "gemm" ∨ LowerCase.text name = "fused") ∧
        (c.options.iterations.or file.iterations).getD 10 ≠ 0 ∧
        (c.options.tokens.or file.tokens).getD 64 ≠ 0) ∧
      ∀ s, resolve (Program.effective file c) = .ok s → Prefers c.options file s := by
  refine ⟨RunOptions.settled_foldl_merge, RunOptions.merge_assoc,
    fun a => ⟨RunOptions.merge_empty a, RunOptions.empty_merge a⟩, fun key => ?_,
    fun file c => ⟨?_, ?_⟩⟩
  · obtain ⟨f, hfind, hassign⟩ := Flag.exists_assign_eq_ok_iff key
    refine ⟨f, hfind, fun text o o' => (hassign text o o').trans ?_⟩
    simp only [RunOptions.set_eq_iff]
  · rw [← exists_runs_iff]
    constructor
    · rintro ⟨s, hs⟩
      obtain ⟨mode, hruns, rfl, hchecks⟩ := (resolve_eq_ok_iff ..).mp hs
      exact ⟨⟨mode, hruns⟩, hchecks⟩
    · rintro ⟨⟨mode, hruns⟩, hchecks⟩
      exact ⟨_, (resolve_eq_ok_iff ..).mpr ⟨mode, hruns, rfl, hchecks⟩⟩
  · intro s hs
    obtain ⟨mode, hruns, rfl, -⟩ := (resolve_eq_ok_iff ..).mp hs
    exact prefers_withDefaults hruns

/-- A file with a workload in capitals, and without tokens. -/
def sampleFile : RunOptions :=
  { mode := some "FUSED", tokens := some 0, groupSize := some (-1), tolerance := some 0 }

/-- A command line that gives the tokens. -/
def sampleCommand : Command := .run { tokens := some 7, seed := some 3 }

/-- The command line decides the tokens and the seed, the file the workload and the groups, and the
defaults the rest. -/
theorem last_source_decides_sampleFile :
    ∃ s, resolve (Program.effective sampleFile sampleCommand) = .ok s ∧ s.mode = .network ∧
      s.tokens = 7 ∧ s.groupSize = -1 ∧ s.seed = 3 ∧ s.rows = 512 := by
  obtain ⟨-, -, -, -, hsettings⟩ := last_source_decides
  obtain ⟨hok, hprefers⟩ := hsettings sampleFile sampleCommand
  have hname : LowerCase.text "FUSED" = "fused" := by decide +kernel
  obtain ⟨s, hs⟩ :=
    hok.mpr ⟨fun name hmode => by cases hmode; exact .inr hname, by decide, by decide⟩
  have hfrom := hprefers s hs
  have hmode : LowerCase.text "FUSED" = s.mode.name := hfrom.mode
  rw [hname, ← Mode.ofName?_eq_some_iff] at hmode
  exact ⟨s, hs, (Option.some.inj hmode).symm, hfrom.tokens, hfrom.groupSize, hfrom.seed, hfrom.rows⟩

end RunSettings

end RoutedExperts
