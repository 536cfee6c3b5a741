import Corun.Config.Parse
import Corun.Proofs.Json.Decoding
import Corun.Proofs.Json.Records
import Corun.Proofs.Run.Lives
import Corun.Proofs.Text.Words
import Corun.Run.Preparation

namespace Corun.Config
open Json (Doc Library streaming)
open Text

variable {c : Config} {entries : List BenchmarkEntry} {bs : List Benchmark} {b : Benchmark}
  {d : Doc} {f : Failure} {text : String} {id : Nat} {lib : Library}

structure Valid (c : Config) : Prop where
  kind : c.manager.kind = "simple"
  benchmarks : c.manager.benchmarks ≠ []
  samplingLength : 0 < c.monitor.samplingLength
  timeLimit : ∀ t ∈ c.manager.timeLimit, 0 < t
  commands : ∀ entry ∈ c.manager.benchmarks, ¬ Blanks entry.command.toList

/-- What is wrong with a configuration, of several things the first. -/
inductive Refused (c : Config) : Failure → Prop
  | kind (h : c.manager.kind ≠ "simple") :
    Refused c (.ofCause (.invalidConfig
      ("unknown execution manager " ++ Text.quoted c.manager.kind)))
  | benchmarks (hkind : c.manager.kind = "simple") (h : c.manager.benchmarks = []) :
    Refused c (.ofCause (.invalidConfig "no benchmarks given"))
  | samplingLength (hkind : c.manager.kind = "simple") (hsome : c.manager.benchmarks ≠ [])
      (h : c.monitor.samplingLength = 0) :
    Refused c (.ofCause (.invalidConfig "sampling_length must be positive"))
  | timeLimit (hkind : c.manager.kind = "simple") (hsome : c.manager.benchmarks ≠ [])
      (hlength : 0 < c.monitor.samplingLength) (h : c.manager.timeLimit = some 0) :
    Refused c (.ofCause (.invalidConfig "time_limit must be positive"))
  | command {before after : List BenchmarkEntry} {entry : BenchmarkEntry}
      (hkind : c.manager.kind = "simple") (hlength : 0 < c.monitor.samplingLength)
      (hlimit : ∀ t ∈ c.manager.timeLimit, 0 < t)
      (hsplit : c.manager.benchmarks = before ++ entry :: after)
      (hbefore : ∀ other ∈ before, ¬ Blanks other.command.toList)
      (h : Blanks entry.command.toList) :
    Refused c ((Failure.ofCause .emptyCommand).within (.validating entry.name))

/-- Benchmarks that have the names and the words of entries, and their places as ids. -/
inductive Listing : Nat → List BenchmarkEntry → List Benchmark → Prop
  | nil (id : Nat) : Listing id [] []
  | cons {id : Nat} {entry : BenchmarkEntry} {b : Benchmark} {entries : List BenchmarkEntry}
      {bs : List Benchmark} (hid : b.id = id) (hname : b.name = entry.name)
      (hargs : b.args = Benchmark.commandWords entry.command) (more : Listing (id + 1) entries bs) :
    Listing id (entry :: entries) (b :: bs)

theorem Listing.length (h : Listing id entries bs) : bs.length = entries.length := by
  induction h with
  | nil => rfl
  | cons _ _ _ _ ih => simp [ih]

theorem Listing.at {i : Nat} (h : Listing id entries bs) (hb : bs[i]? = some b) :
    ∃ entry, entries[i]? = some entry ∧ b.id = id + i ∧ b.name = entry.name ∧
      b.args = Benchmark.commandWords entry.command := by
  induction h generalizing i with
  | nil => simp at hb
  | @cons id entry b' entries bs hid hname hargs more ih =>
    cases i with
    | zero =>
      obtain rfl : b' = b := by simpa using hb
      exact ⟨entry, rfl, hid, hname, hargs⟩
    | succ i =>
      obtain ⟨entry', hentry, hlater, hrest⟩ := ih (i := i) (by simpa using hb)
      exact ⟨entry', by simpa using hentry, by omega, hrest⟩

/-- Either every entry has a command, or the first that has none is found. -/
theorem benchmarksFrom_cases (id : Nat) (entries : List BenchmarkEntry) :
    (∃ bs, benchmarksFrom id entries = .ok bs ∧ Listing id entries bs ∧
      ∀ entry ∈ entries, ¬ Blanks entry.command.toList) ∨
    ∃ before entry after, entries = before ++ entry :: after ∧
      (∀ other ∈ before, ¬ Blanks other.command.toList) ∧ Blanks entry.command.toList ∧
      benchmarksFrom id entries =
        .error ((Failure.ofCause .emptyCommand).within (.validating entry.name)) := by
  induction entries generalizing id with
  | nil => exact .inl ⟨[], rfl, .nil id, nofun⟩
  | cons entry entries ih =>
    cases hc : Benchmark.ofCommand id entry.name entry.command with
    | error f =>
      obtain ⟨hwordless, rfl⟩ := Benchmark.ofArgs_error_iff.mp hc
      refine .inr ⟨[], entry, entries, rfl, nofun, Benchmark.commandWords_nil_iff.mp hwordless, ?_⟩
      simp only [benchmarksFrom, hc]
    | ok b =>
      obtain ⟨hid, hname, hargs⟩ := Benchmark.ofArgs_ok_iff.mp hc
      have hword : ¬ Blanks entry.command.toList := by
        intro hblanks
        simp [Benchmark.commandWords_nil_iff.mpr hblanks, Benchmark.args] at hargs
      rcases ih (id + 1) with
        ⟨bs, hbs, hlisting, hwords⟩ | ⟨before, bad, after, hsplit, hbefore, hbad, hf⟩
      · refine .inl ⟨b :: bs, ?_, .cons hid hname hargs hlisting,
          List.forall_mem_cons.mpr ⟨hword, hwords⟩⟩
        simp only [benchmarksFrom, hc, hbs]
        rfl
      · refine .inr ⟨entry :: before, bad, after, by rw [hsplit, List.cons_append],
          List.forall_mem_cons.mpr ⟨hword, hbefore⟩, hbad, ?_⟩
        simp only [benchmarksFrom, hc, hf]
        rfl

theorem violation_cases (c : Config) :
    (c.violation? = none ∧ c.manager.kind = "simple" ∧ c.manager.benchmarks ≠ [] ∧
      0 < c.monitor.samplingLength ∧ ∀ t ∈ c.manager.timeLimit, 0 < t) ∨
    ∃ v, c.violation? = some v ∧ Refused c (.ofCause (.invalidConfig v.message)) := by
  unfold violation?
  split
  · rename_i hkind
    exact .inr ⟨_, rfl, .kind hkind⟩
  · rename_i hkind
    have hkind : c.manager.kind = "simple" := of_not_not hkind
    split
    · rename_i hnone
      exact .inr ⟨_, rfl, .benchmarks hkind hnone⟩
    · rename_i hsome
      split
      · rename_i hzero
        exact .inr ⟨_, rfl, .samplingLength hkind hsome hzero⟩
      · rename_i hlength
        have hlength : 0 < c.monitor.samplingLength := Nat.pos_of_ne_zero hlength
        split
        · rename_i hlimit
          exact .inr ⟨_, rfl, .timeLimit hkind hsome hlength hlimit⟩
        · rename_i hlimit
          refine .inl ⟨rfl, hkind, hsome, hlength, ?_⟩
          intro t ht
          apply Nat.pos_of_ne_zero
          rintro rfl
          exact hlimit ht

theorem validate_cases (c : Config) :
    (c.validate = .ok () ∧ Valid c ∧
      ∃ bs, c.manager.resolved = .ok bs ∧ Listing 0 c.manager.benchmarks bs) ∨
    ∃ f, c.validate = .error f ∧ Refused c f := by
  unfold validate
  rcases violation_cases c with ⟨hnone, hkind, hsome, hlength, hlimit⟩ | ⟨v, hv, hrefused⟩
  · rw [hnone]
    unfold Manager.resolved
    rcases benchmarksFrom_cases 0 c.manager.benchmarks with
      ⟨bs, hbs, hlisting, hwords⟩ | ⟨before, entry, after, hsplit, hbefore, hentry, hf⟩
    · rw [hbs]
      exact .inl ⟨rfl, ⟨hkind, hsome, hlength, hlimit, hwords⟩, bs, rfl, hlisting⟩
    · rw [hf]
      exact .inr ⟨_, rfl, .command hkind hlength hlimit hsplit hbefore hentry⟩
  · rw [hv]
    exact .inr ⟨_, rfl, hrefused⟩

theorem parse_ok (h : parse lib text = .ok c) :
    fromText lib schema text = .ok c ∧ c.validate = .ok () := by
  unfold parse at h
  cases hdecoded : fromText lib schema text with
  | error f =>
    rw [hdecoded] at h
    cases h
  | ok c' =>
    simp only [hdecoded, bind, Except.bind] at h
    rcases validate_cases c' with ⟨hok, -⟩ | ⟨f, hf, -⟩
    · rw [hok] at h
      cases h
      exact ⟨rfl, hok⟩
    · rw [hf] at h
      cases h

theorem fromText_ok (h : fromText lib schema text = .ok c) :
    lib.decode schema (lib.read text).document = .ok c := by
  cases hdecoded : lib.decode schema (lib.read text).document with
  | error f =>
    simp only [fromText, Library.fromText, hdecoded] at h
    cases h
  | ok c' =>
    simp only [fromText, Library.fromText, hdecoded, bind, Except.bind] at h
    cases hclose : (lib.read text).close with
    | error f =>
      rw [hclose] at h
      cases h
    | ok u =>
      rw [hclose] at h
      cases h
      rfl

/-- The items that a document lists as benchmarks. -/
def Listed (d : Doc) (items : List Doc) : Prop :=
  ∃ m e, record.Has .manager d m ∧ Manager.record.Has .benchmarks m (.array items e)

theorem listed (hd : lib.Decodes) (h : lib.decode schema d = .ok c) :
    ∃ items, Listed d items ∧
      List.Forall₂ (fun d entry => lib.decode BenchmarkEntry.schema d = .ok entry) items
        c.manager.benchmarks := by
  obtain ⟨x, hx, rfl⟩ := hd.record.mp h
  obtain ⟨d', hhas, hmanager⟩ := hx.has (f := .manager) rfl
  obtain ⟨y, hy, hm⟩ := hd.record.mp hmanager
  obtain ⟨d'', hhas', hbenchmarks⟩ := hy.has (f := .benchmarks) rfl
  obtain ⟨items, rfl, heach⟩ := hd.list.mp hbenchmarks
  refine ⟨items, ⟨d', .closed, hhas, hhas'⟩, ?_⟩
  have hentries : (x .manager).benchmarks = y .benchmarks := by rw [← hm]
  rw [hentries]
  exact heach

/-- A run that has benchmarks gets past the point where it looks for them. -/
theorem run_enters {σ : Type} [Strategy σ] {start r r' : Run σ} {acts : List Run.Action}
    {e e' : List Run.Entry} (hsome : start.benchmarks ≠ []) (h : Run.run start acts = some (r, e))
    (hp : r.position = .entering) (hstep : r.step .manage = some (r', e')) :
    r'.position = .settingUp := by
  have hsome : r.benchmarks ≠ [] := by
    rw [(Run.run_sameTask h).benchmarks]
    exact hsome
  simp only [Run.step, Run.manage, hp] at hstep
  unfold Run.enter at hstep
  rw [if_neg hsome] at hstep
  cases hstep
  rfl

/-- What can be relied on when a document was parsed as a configuration with some benchmarks. -/
structure Ready (lib : Library) (d : Doc) (c : Config) (bs : List Benchmark) : Prop where
  valid : Valid c
  /-- The entries are the items that the document lists, in that order. -/
  listed : ∃ items, Listed d items ∧ bs.length = items.length ∧
    List.Forall₂ (fun d entry => lib.decode BenchmarkEntry.schema d = .ok entry) items
        c.manager.benchmarks
  resolved : c.manager.resolved = .ok bs
  nonempty : bs ≠ []
  each : ∀ (i : Nat) (b : Benchmark), bs[i]? = some b →
    ∃ entry, c.manager.benchmarks[i]? = some entry ∧ b.id = i ∧ b.name = entry.name ∧
      b.args = Benchmark.commandWords entry.command ∧ b.args ≠ [] ∧ ∀ w ∈ b.args, Word w.toList
  /-- Only making the strategy can fail. -/
  setUp : ∀ scheduler, Run.prepareConfig scheduler c =
    (Strategy.ofConfig scheduler c.monitor).map fun strategy => (bs, strategy)
  enters : ∀ {σ : Type} [Strategy σ] (start r r' : Run σ) acts e e', start.benchmarks = bs →
    Run.run start acts = some (r, e) → r.position = .entering → r.step .manage = some (r', e') →
    r'.position = .settingUp
  children : ∀ b ∈ bs, ∀ mode, ∃ g, Child.Gated.ofArgs b.args mode = .ok g ∧ g.args = b.args

theorem parse_ready (hd : lib.Decodes) (h : parse lib text = .ok c) :
    ∃ bs, Ready lib (lib.read text).document c bs := by
  obtain ⟨hdecoded, hvalidated⟩ := parse_ok h
  rcases validate_cases c with ⟨-, hvalid, bs, hbs, hlisting⟩ | ⟨f, hf, -⟩
  · have hlength := hlisting.length
    have hsome : bs ≠ [] := by
      rintro rfl
      exact hvalid.benchmarks (List.eq_nil_of_length_eq_zero hlength.symm)
    obtain ⟨items, hitems, heach⟩ := listed hd (fromText_ok hdecoded)
    refine ⟨bs, hvalid, ⟨items, hitems, hlength.trans heach.length_eq.symm, heach⟩, hbs, hsome,
      ?_, ?_, ?_, ?_⟩
    · intro i b hb
      obtain ⟨entry, hentry, hid, hname, hargs⟩ := hlisting.at hb
      refine ⟨entry, hentry, by omega, hname, hargs, by simp [Benchmark.args], ?_⟩
      rw [hargs]
      exact Benchmark.commandWords_word
    · intro scheduler
      unfold Run.prepareConfig
      rw [hbs]
      cases Strategy.ofConfig scheduler c.monitor <;> rfl
    · rintro σ _ start r r' acts e e' rfl hrun hp hstep
      exact run_enters hsome hrun hp hstep
    · intro b hb mode
      exact ⟨_, rfl, rfl⟩
  · cases hf.symm.trans hvalidated

/-- Whatever the text, a configuration that is parsed of it is one that a run can be set up with. One
that is decoded of it but is not valid is refused for the first thing that is wrong with it. -/
theorem parsed_is_ready_and_flawed_refused (lib : Library) (hd : lib.Decodes) :
    (∀ text c, parse lib text = .ok c → ∃ bs, Ready lib (lib.read text).document c bs) ∧
      ∀ text c, fromText lib schema text = .ok c → ¬ Valid c →
        ∃ f, Refused c f ∧ parse lib text = .error f := by
  constructor
  · intro text c h
    exact parse_ready hd h
  · intro text c hdecoded hinvalid
    rcases validate_cases c with ⟨-, hvalid, -⟩ | ⟨f, hf, hrefused⟩
    · exact absurd hvalid hinvalid
    · refine ⟨f, hrefused, ?_⟩
      simp only [parse, hdecoded, bind, Except.bind, hf]

/-- Two benchmarks are made ready. Of a limit of nothing and a command without words, it is the limit
that is complained of. -/
theorem two_ready_and_no_time_refused :
    (∃ c bs, parse streaming "[[\"simple\",\"tree\",null,[[\"a\",\"/b c\"],[\"d\",\"/e\"]]]]" = .ok c ∧
      bs.length = 2 ∧ c.manager.resolved = .ok bs) ∧
    ∃ f, parse streaming "[[\"simple\",\"tree\",0,[[\"a\",\" \"]]]]" = .error f ∧
      f.message = "invalid configuration: time_limit must be positive" := by
  obtain ⟨hready, hrefused⟩ :=
    parsed_is_ready_and_flawed_refused streaming Json.streaming_decodes
  constructor
  · have hparsed : parse streaming "[[\"simple\",\"tree\",null,[[\"a\",\"/b c\"],[\"d\",\"/e\"]]]]" =
        .ok ⟨⟨"simple", .tree, none, [⟨"a", "/b c"⟩, ⟨"d", "/e"⟩]⟩, Monitor.default⟩ := by
      unfold parse fromText Library.fromText streaming Json.Reader.document
      simp only [String.reduceToList]
      rfl
    obtain ⟨bs, hbs⟩ := hready _ _ hparsed
    obtain ⟨items, -, hlength, heach⟩ := hbs.listed
    exact ⟨_, bs, hparsed, hlength.trans heach.length_eq, hbs.resolved⟩
  · have hdecoded : fromText streaming schema "[[\"simple\",\"tree\",0,[[\"a\",\" \"]]]]" =
        .ok ⟨⟨"simple", .tree, some 0, [⟨"a", " "⟩]⟩, Monitor.default⟩ := by
      unfold fromText Library.fromText streaming Json.Reader.document
      simp only [String.reduceToList]
      rfl
    obtain ⟨f, hf, hparsed⟩ := hrefused _ _ hdecoded fun hvalid =>
      absurd (hvalid.timeLimit 0 rfl) (Nat.lt_irrefl 0)
    refine ⟨f, hparsed, ?_⟩
    cases hf with
    | timeLimit => rfl
    | kind h => exact absurd rfl h
    | benchmarks _ h => cases h
    | samplingLength _ _ h => cases h
    | command _ _ hlimit => exact absurd (hlimit 0 rfl) (Nat.lt_irrefl 0)

end Corun.Config
