import Corun.Config.Parse
import Corun.Proofs.Config.Writings
import Corun.Proofs.Json.Reading

namespace Corun.Config
open Json (Value Numeral Number Fault Library Spells isSpace streaming)
open Json.Quoted (IsHex Escapes plain_spells)

/-- Some section of the document has a flaw. -/
inductive Flawed : Value → Prop
  | top (h : outline.Flawed v) : Flawed v
  | manager (hm : outline.HasField .manager v m) (h : Manager.outline.Flawed m) : Flawed v
  | monitor (hm : outline.HasField .monitor v m) (h : Monitor.outline.Flawed m) : Flawed v
  | benchmark (hm : outline.HasField .manager v m)
      (hbs : Manager.outline.HasField .benchmarks m (.array bs)) (hb : b ∈ bs)
      (h : BenchmarkEntry.outline.Flawed b) : Flawed v

variable {c : Config} {v : Value} {text : String} {lib : Library}
  {number : Numeral → Except Fault Number}

theorem Manager.decoded (hd : lib.Decodes) {m : Manager}
    (h : lib.decode schema (v.doc number) = .ok m) :
    ¬ outline.Flawed v ∧ ∀ bs b, outline.HasField .benchmarks v (.array bs) → b ∈ bs →
      ¬ BenchmarkEntry.outline.Flawed b := by
  obtain ⟨x, hx, -⟩ := hd.record.mp h
  refine ⟨record_follows.flawless hx, fun bs b hbs hb => ?_⟩
  obtain ⟨entry, hentry⟩ := hd.item_decoded (record_follows.held hx hbs) hb
  obtain ⟨y, hy, -⟩ := hd.record.mp hentry
  exact BenchmarkEntry.record_follows.flawless hy

theorem Monitor.decoded (hd : lib.Decodes) {m : Monitor}
    (h : lib.decode schema (v.doc number) = .ok m) : ¬ outline.Flawed v := by
  obtain ⟨x, hx, -⟩ := hd.record.mp h
  exact record_follows.flawless hx

/-- What is decoded has no flaw in any section. -/
theorem decoded (hd : lib.Decodes) (h : lib.decode schema (v.doc number) = .ok c) : ¬ Flawed v := by
  obtain ⟨x, hx, -⟩ := hd.record.mp h
  intro hflawed
  cases hflawed with
  | top h => exact record_follows.flawless hx h
  | manager hm h => exact (Manager.decoded hd (record_follows.held hx hm)).1 h
  | monitor hm h => exact Monitor.decoded hd (record_follows.held hx hm) h
  | benchmark hm hbs hb h => exact (Manager.decoded hd (record_follows.held hx hm)).2 _ _ hbs hb h

/-- A text that says what the configuration is, in any of the ways there are. -/
def WrittenBy (c : Config) (text : String) : Prop := ∃ v, c.WrittenAs v ∧ v.SpelledBy text

/-- A configuration with one benchmark, and otherwise nothing but defaults. -/
def lone : Config := ⟨⟨"simple", .single, none, [⟨"a", "/b"⟩]⟩, Monitor.default⟩

/-- Its sections as lists, and none for the monitor. -/
def loneLists : Value :=
  .array [.array [.string "simple", .string "single", .null,
    .array [.array [.string "a", .string "/b"]]]]

def loneText : String := "[[\"simple\",\"single\", null,[[\"\\u0061\",\"/b\"]]]]\n"

theorem lone_written : lone.WrittenAs loneLists := by
  have hentry : BenchmarkEntry.WrittenAs ⟨"a", "/b"⟩ (.array [.string "a", .string "/b"]) :=
    .array (List.append_nil _).symm (.cons rfl (.cons rfl .nil)) nofun
  have hmanager : lone.Holds .manager (.array [.string "simple", .string "single", .null,
      .array [.array [.string "a", .string "/b"]]]) :=
    .array (List.append_nil _).symm
      (.cons rfl (.cons (.inl rfl) (.cons rfl (.cons ⟨_, rfl, .cons hentry .nil⟩ .nil)))) nofun
  have hfields : outline.fields = [.manager] ++ [.monitor] := rfl
  refine .array hfields (.cons hmanager .nil) fun f hf => ?_
  obtain rfl := List.mem_singleton.mp hf
  intro g
  cases g <;> rfl

theorem lone_spelled : loneLists.SpelledBy loneText := by
  have hzero : IsHex 0 '0' := by decide
  have hsix : IsHex 6 '6' := by decide
  have hone : IsHex 1 '1' := by decide
  have hletter : ∀ rest, Escapes 'a' ('u' :: '0' :: '0' :: '6' :: '1' :: rest) rest :=
    fun rest => .code (.four hzero hzero hsix hone)
  have hentry : ∀ rest, Spells (.value (.array [.string "a", .string "/b"]))
      ("[\"\\u0061\",\"/b\"]".toList ++ rest) rest := fun rest =>
    .array (.itemsFirst (.item (.string (.escape (hletter _) .close))
      (.itemsNext (.item (.string (plain_spells _ _ rfl)) .itemsEnd))))
  have hkind : ∀ rest, Spells (.value (.string "simple")) ("\"simple\"".toList ++ rest) rest :=
    fun rest => .string (plain_spells _ _ rfl)
  have hmode : ∀ rest, Spells (.value (.string "single")) ("\"single\"".toList ++ rest) rest :=
    fun rest => .string (plain_spells _ _ rfl)
  have hentries : ∀ rest, Spells (.value (.array [.array [.string "a", .string "/b"]]))
      ("[[\"\\u0061\",\"/b\"]]".toList ++ rest) rest := fun rest =>
    .array (.itemsFirst (.item (hentry _) .itemsEnd))
  refine ⟨['\n'], .array (.itemsFirst (.item (.array ?_) .itemsEnd)), by simp [isSpace]⟩
  exact .itemsFirst (.item (hkind _) (.itemsNext (.item (hmode _)
    (.itemsNext (.item (.blank rfl .null) (.itemsNext (.item (hentries _) .itemsEnd)))))))

/-- However a valid configuration is written, it is parsed, and a document with a flaw never is. -/
theorem writings_parsed_and_flaws_refused (lib : Library) (number : Numeral → Except Fault Number)
    (hr : lib.Reads number) (hd : lib.Decodes) :
    (∀ (c : Config) text, c.validate = .ok () → c.Fits → c.WrittenBy text →
      parse lib text = .ok c) ∧
      ∀ v text, Flawed v → v.SpelledBy text → ∃ f, parse lib text = .error f := by
  constructor
  · intro c text hvalid hfits ⟨v, hv, ht⟩
    have hconveys : lib.Conveys number Library.nesting schema v c := conveys hd hr hfits hv
    have htext : fromText lib schema text = .ok c := by
      simp only [fromText, hr.fromText hconveys ht, Except.mapError]
    simp only [parse, htext, bind, Except.bind, hvalid]
    rfl
  · intro v text hflawed ht
    cases h : lib.fromText schema text with
    | ok c => exact absurd hflawed (decoded hd (hr.decoded ht h))
    | error f =>
      refine ⟨.ofCause (.json f), ?_⟩
      simp only [parse, fromText, h, Except.mapError]
      rfl

theorem lists_parsed_and_empty_refused :
    parse streaming loneText = .ok lone ∧ ∃ f, parse streaming "[[]]" = .error f := by
  have hflawed : Flawed (.array [.array []]) :=
    .manager (.item (i := 0) rfl rfl) (.short (f := .benchmarks) (by decide) rfl)
  have hspelled : (Value.array [.array []]).SpelledBy "[[]]" :=
    ⟨[], .array (.itemsFirst (.item (.array .itemsEnd) .itemsEnd)), nofun⟩
  have hvalid : lone.validate = .ok () := rfl
  have hfits : lone.Fits := ⟨nofun, by decide, nofun⟩
  obtain ⟨hparsed, hrefused⟩ := writings_parsed_and_flaws_refused streaming Numeral.value
    Json.streaming_reads Json.streaming_decodes
  exact ⟨hparsed lone loneText hvalid hfits ⟨loneLists, lone_written, lone_spelled⟩,
    hrefused _ _ hflawed hspelled⟩

end Corun.Config
