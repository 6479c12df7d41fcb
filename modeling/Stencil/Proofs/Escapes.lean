import Stencil.Proofs.Upkeep

/-! What a render can fail with other than an error of templates. Callables, handlers and loaders may fail as they
like: their failures become results. What is left are faults of the engine's own work on values. -/
namespace Stencil

variable {ε α β : Type}

theorem boundError {x : Except ε α} {f : α → Except ε β} {e : ε} (failed : (x >>= f) = .error e) :
    x = .error e ∨ ∃ a, x = .ok a ∧ f a = .error e := by
  cases x with
  | error e' => exact .inl (by simpa [Bind.bind, Except.bind] using failed)
  | ok a => exact .inr ⟨a, rfl, failed⟩

theorem mappedError {x : Except ε α} {f : α → β} {e : ε} (failed : x.map f = .error e) : x = .error e := by
  cases x with
  | error e' => simpa [Except.map] using failed
  | ok a => cases failed

/- The faults of values that no step of a render turns into an error of templates: an index that is no number
or has too many digits, a number that is too large to compare, and what cannot be written as a text. -/
inductive ValueFault.Escapes : ValueFault → Prop where
  | notInteger (text : String) : Escapes (.notInteger 10 text)
  | tooManyDigits (count : Nat) : Escapes (.tooManyDigits count)
  | tooLarge : Escapes .tooLarge
  | unwritable : Escapes .unwritable
  | badKey (word : String) : Escapes (.badKey word)

namespace Path

open ValueFault

theorem readEscapes {text : String} {f : ValueFault} (failed : readInteger text = .error f) : f.Escapes := by
  rw [readInteger] at failed
  split at failed
  · cases failed
  · cases failed
    exact .tooManyDigits _
  · cases failed
    exact .notInteger text

theorem stepEscapes {v : Value} {segment : String} {f : ValueFault} (failed : step v segment = .error f) :
    f.Escapes := by
  cases v with
  | list items | tuple items =>
    rw [step] at failed
    split at failed
    · exact readEscapes (mappedError failed)
    · cases failed
  | map | null | missing | str | bool | int | float | date | moment | time | set | callable => cases failed

theorem walkEscapes {v : Value} {segments : List String} {f : ValueFault}
    (failed : walk v segments = .error f) : f.Escapes := by
  induction segments generalizing v with
  | nil => cases failed
  | cons s rest ih =>
    rw [walk] at failed
    cases taken : step v s with
    | error g =>
      rw [taken] at failed
      cases failed
      exact stepEscapes taken
    | ok next =>
      rw [taken] at failed
      exact ih failed

theorem resolveEscapes {tree : Value} {path : String} {f : ValueFault} (failed : resolve tree path = .error f) :
    f.Escapes := by
  rw [resolve] at failed
  split at failed
  · cases failed
  · exact walkEscapes failed

end Path

namespace Value

open ValueFault

theorem decimalEscapes {n : Int} {f : ValueFault} (failed : decimal n = .error f) : f.Escapes := by
  rw [decimal] at failed
  split at failed
  · cases failed
  · cases failed
    exact .unwritable

theorem keyEscapes {v : Value} {f : ValueFault} (failed : v.jsonKey = .error f) : f.Escapes := by
  cases v with
  | str | null | bool | float => cases failed
  | int n => exact decimalEscapes failed
  | missing | list | tuple | set | map | date | moment | time | callable =>
    cases failed
    exact .badKey _

mutual

theorem jsonEscapes {s : JsonStyle} {level : Nat} {v : Value} {f : ValueFault}
    (failed : jsonAt s level v = .error f) : f.Escapes := by
  cases v with
  | null | bool | float | str | date | moment | time | missing | callable => cases failed
  | int n => exact decimalEscapes failed
  | list xs | tuple xs | set xs =>
    rcases boundError failed with items | ⟨texts, -, failed⟩
    · exact itemsEscape items
    · cases failed
  | map es =>
    rcases boundError failed with entries | ⟨texts, -, failed⟩
    · exact entriesEscape entries
    · cases failed

theorem itemsEscape {s : JsonStyle} {level : Nat} {xs : List Value} {f : ValueFault}
    (failed : jsonItems s level xs = .error f) : f.Escapes := by
  cases xs with
  | nil => cases failed
  | cons x xs =>
    rcases boundError failed with first | ⟨text, -, failed⟩
    · exact jsonEscapes first
    · rcases boundError failed with rest | ⟨texts, -, failed⟩
      · exact itemsEscape rest
      · cases failed

theorem entriesEscape {s : JsonStyle} {level : Nat} {es : List (Value × Value)} {f : ValueFault}
    (failed : jsonEntries s level es = .error f) : f.Escapes := by
  cases es with
  | nil => cases failed
  | cons entry es =>
    obtain ⟨k, v⟩ := entry
    rcases boundError failed with key | ⟨word, -, failed⟩
    · exact keyEscapes key
    · rcases boundError failed with first | ⟨text, -, failed⟩
      · exact jsonEscapes first
      · rcases boundError failed with rest | ⟨texts, -, failed⟩
        · exact entriesEscape rest
        · cases failed

end

theorem textEscapes {v : Value} {f : ValueFault} (failed : v.text = .error f) : f.Escapes := by
  cases v with
  | null | missing | str | bool | float | date | moment | time | set | callable => cases failed
  | int n => exact decimalEscapes failed
  | list | tuple | map => exact jsonEscapes failed

theorem realEscapes {v : Value} {f : ValueFault} (failed : v.real? = .error f) : f = .tooLarge := by
  cases v with
  | int n =>
    simp only [real?] at failed
    split at failed
    · cases failed
    · cases failed
      rfl
  | null | missing | str | bool | float | date | moment | time | set | callable | list | tuple | map =>
    cases failed

theorem realsEscape {a b : Value} {f : ValueFault} (failed : reals? a b = .error f) : f = .tooLarge := by
  rcases boundError failed with first | ⟨x, -, failed⟩
  · exact realEscapes first
  · rcases boundError failed with second | ⟨y, -, failed⟩
    · exact realEscapes second
    · cases failed

theorem looseEscapes {a b : Value} {f : ValueFault} (failed : looselyEqual a b = .error f) :
    f = .tooLarge := by
  rw [looselyEqual] at failed
  split at failed
  · cases failed
  · split at failed
    · cases failed
    · split at failed
      · rcases boundError failed with reals | ⟨_, -, failed⟩
        · exact realsEscape reals
        · cases failed
      · rcases boundError failed with reals | ⟨_, -, failed⟩
        · exact realsEscape reals
        · cases failed
      · cases failed

theorem orderEscapes {a b : Value} {f : ValueFault} (failed : order? a b = .error f) : f = .tooLarge := by
  have compared {g : Option (Binary64 × Binary64) → Except ValueFault (Option Ordering)}
      (defined : ∀ x, ∃ o, g x = .ok o) (failed : (reals? a b >>= g) = .error f) : f = .tooLarge := by
    rcases boundError failed with reals | ⟨x, -, failed⟩
    · exact realsEscape reals
    · obtain ⟨o, here⟩ := defined x
      rw [here] at failed
      cases failed
  rw [order?.eq_def] at failed
  split at failed
  case h_1 | h_5 => cases failed
  all_goals
    split at failed
    case h_4 => cases failed
    all_goals exact compared (fun x => ⟨_, rfl⟩) failed

/- Operands of any kind can be compared, save for numbers that are too large, by any operator that there is. -/
theorem compareEscapes {r : Relation} {a b : Value} {f : ValueFault} (failed : compare r a b = .error f) :
    f = .tooLarge ∨ ∃ symbol, f = .unknownRelation symbol := by
  cases r with
  | equal => exact .inl (looseEscapes failed)
  | notEqual => exact .inl (looseEscapes (mappedError failed))
  | same | notSame => cases failed
  | greater | less | atLeast | atMost =>
    rcases boundError failed with order | ⟨o, -, failed⟩
    · exact .inl (orderEscapes order)
    · cases failed
  | unknown symbol =>
    rcases boundError failed with order | ⟨o, -, failed⟩
    · exact .inl (orderEscapes order)
    · cases failed
      exact .inr ⟨_, rfl⟩

end Value
/- Defaults and handlers are mappings, as they have to be. -/
structure RenderOptions.Mapped (options : RenderOptions) : Prop where
  defaults : ∃ entries, options.defaults = .map entries
  handlers : ∃ entries, options.handlers = .map entries

def Failure.Lawful (e : Failure) : Prop := ∀ f, e = .value f → f.Escapes

/- A state of a render with these options. -/
def Under (options : RenderOptions) : List Scope → RunState → Prop := Noted fun given _ _ => given = options

namespace Under

variable {options : RenderOptions}

theorem rawEscapes (mapped : options.Mapped) {vars : Value} {path : String} {f : ValueFault}
    (failed : rawValue vars options.defaults path = .error f) : f.Escapes := by
  obtain ⟨entries, defaults⟩ := mapped.defaults
  rcases boundError failed with here | ⟨v, -, failed⟩
  · exact Path.resolveEscapes here
  · split at failed
    · rw [defaults] at failed
      rcases boundError failed with held | ⟨held, -, failed⟩
      · cases held
      · split at failed
        · cases failed
        · exact Path.resolveEscapes failed
    · cases failed

theorem holdsNever (mapped : options.Mapped) {path : String} {f : ValueFault} :
    Path.holds options.handlers path ≠ .error f := by
  obtain ⟨entries, handlers⟩ := mapped.handlers
  rw [handlers]
  rintro ⟨⟩

theorem upkeep (mapped : options.Mapped) : Upkeep Failure.Lawful (Under options) where
  toLasting := Noted.lasting (fun _ same => same) (fun _ same => same)
  world w before := before.world w
  errors e f same := by cases same
  raw := by
    rintro scopes s path f ⟨-, same⟩ failed _ ⟨⟩
    rw [same] at failed
    exact rawEscapes mapped failed
  holds := by
    rintro scopes s path f ⟨-, same⟩ failed
    rw [same] at failed
    exact absurd failed (holdsNever mapped)
  walks := by
    rintro v parts f failed _ ⟨⟩
    exact Path.walkEscapes failed
  compares := by
    rintro r a b f failed other _ ⟨⟩
    rcases Value.compareEscapes failed with rfl | ⟨symbol, rfl⟩
    · exact .tooLarge
    · exact absurd rfl other
  texts := by
    rintro v f failed _ ⟨⟩
    exact Value.textEscapes failed

end Under

theorem Timeout.secondsEscapes {t : Timeout} {f : ValueFault} (failed : t.seconds = .error f) :
    f = .tooLarge := by
  rw [seconds] at failed
  split at failed
  · cases failed
  · cases failed
    rfl

theorem Frame.startEscapes {vars : Value} {options : RenderOptions} {now : Binary64} {f : ValueFault}
    (failed : start vars options now = .error f) : f = .tooLarge := by
  rw [start] at failed
  split at failed
  · rcases boundError failed with deadline | ⟨_, -, failed⟩
    · exact Timeout.secondsEscapes (mappedError deadline)
    · cases failed
  · cases failed

theorem Frame.startUnder {vars : Value} {options : RenderOptions} {now : Binary64} {f : Frame}
    (begun : start vars options now = .ok f) (w : World) : Under options [] ⟨f, w⟩ := by
  rw [start] at begun
  split at begun
  · obtain ⟨deadline, -, begun⟩ := boundOk begun
    cases begun
    exact ⟨rfl, rfl⟩
  · cases begun
    exact ⟨rfl, rfl⟩

/- A failed result has no output, and what is no result is a fault that escapes. -/
def Concludes : Except ValueFault RenderResult → Prop
  | .ok r => ∀ fault, r.failure = some fault → r.output = ""
  | .error f => f.Escapes

namespace Template

theorem concludes {P : RunState → Prop} {x : EStateM.Result Failure RunState Unit} (host : Host)
    (upheld : Upheld P Failure.Lawful x) : Concludes (concluded host x).1 := by
  cases upheld with
  | ok => rintro fault ⟨⟩
  | @error e s lawful =>
    cases e with
    | template fault => exact fun _ _ => rfl
    | value f => exact lawful f rfl

theorem renderConcludes {e : Engine} {options : RenderOptions} (mapped : options.Mapped) (t : Template)
    (vars : Value) (w : World) : Concludes (t.render e.host e.includer vars options w).1 := by
  cases begun : Frame.start vars options (w.tick e.host).1 with
  | error f =>
    simp only [render, begin, begun, Except.map]
    rw [Frame.startEscapes begun]
    exact .tooLarge
  | ok f =>
    rw [renderEnds begun]
    have upkeep := Under.upkeep mapped
    have runs : Upholds (Under options []) Failure.Lawful
        (do Run.execute e.host e.includer t; Run.checkDeadline e.host) := by
      refine .bind (upkeep.executeUpholds t ?_) fun _ => upkeep.keeping.deadlineUpholds
      intro run same name scopes
      cases same
      exact upkeep.inclusionUpholds e _ name scopes
    exact concludes e.host (runs _ (Frame.startUnder begun _))

end Template

/- Whatever the callables, the handlers and the loader do, a render gives a result, and a failed one is without
output, unless a fault of the values escapes. -/
theorem failuresReturned {e : Engine} {options : RenderOptions} (mapped : options.Mapped) (text : String)
    (vars : Value) (w : World) : Concludes (e.render text vars options w).1 := by
  rw [Engine.render]
  split
  · exact fun _ _ => rfl
  · exact Template.renderConcludes mapped _ vars _

def samplePlain : Engine := ⟨.standard, .empty, none, .still⟩

/- An index that is a digit, but no numeral. -/
def sampleIndex : String := "$\x7bxs.²\x7d"

def sampleIndexed : Value := .map [(.str "xs", .list [.int 1])]

set_option maxRecDepth 4000 in
theorem sampleIndexRaises : (samplePlain.render sampleIndex sampleIndexed .unlimited .fresh).1 =
    .error (.notInteger 10 "²") := by
  have tokens : Token.scan .standard sampleIndex =
      .ok [⟨.output, "xs.²", ⟨1, 1, 0⟩, 7⟩, ⟨.eof, "", ⟨1, 8, 7⟩, 7⟩] := by cbv
  have item : Output.parse "xs.²" = .ok ⟨"xs.²", .path "xs.²", []⟩ := by cbv
  have read : Node.ofTokens .standard [⟨.output, "xs.²", ⟨1, 1, 0⟩, 7⟩, ⟨.eof, "", ⟨1, 8, 7⟩, 7⟩] =
      .ok (.root .start [.output ⟨1, 1, 0⟩ "xs.²"]) := by cbv
  have compiled : Procedure.compile .empty (.root .start [.output ⟨1, 1, 0⟩ "xs.²"]) =
      .ok ⟨⟨[.emit ⟨1, 1, 0⟩ "xs.²" (.path "xs.²") []], [], 0⟩, ["xs.²"]⟩ := by
    simp only [Procedure.compile, Procedure.compileNodes, Procedure.compileNode, item]
    rfl
  obtain ⟨p, built, template⟩ : ∃ p, samplePlain.build sampleIndex = .ok p ∧ p.template =
      ⟨Digest.sha1 sampleIndex, .root .start [.output ⟨1, 1, 0⟩ "xs.²"],
        ⟨[.emit ⟨1, 1, 0⟩ "xs.²" (.path "xs.²") []], [], 0⟩, ["xs.²"]⟩ :=
    ⟨_, Engine.buildOk.mpr ⟨_, _, _, tokens, read, compiled, rfl⟩, rfl⟩
  have honest : samplePlain.Honest sampleIndex World.fresh.cache := by
    simp [Engine.Honest, World.fresh, Cache.empty]
  rw [Engine.renderBuilt honest built, Template.renderEnds (Frame.startUnlimited (by decide) _ _), template]
  generalize (samplePlain.process sampleIndex true World.fresh.cache).2 = cache
  have parts : Path.segments "xs.²" = ["xs", "²"] := by cbv
  have raised : Path.resolve sampleIndexed "xs.²" = .error (.notInteger 10 "²") := by cbv
  have resolved {s : RunState} (vars : s.frame.vars = sampleIndexed) (scopes : s.frame.scopes = []) :
      Run.resolve samplePlain.host "xs.²" s = .error (.value (.notInteger 10 "²")) s := by
    rw [Run.resolveEnds, parts]
    simp only [Frame.bound?, scopes, List.findSome?_nil, Run.lookupEnds, rawValue, vars, raised]
    rfl
  simp only [Run.execute, Run.require, bind, EStateM.bind]
  rw [resolved rfl rfl]
  rfl

theorem failuresReturnedIndex : ∃ f, (samplePlain.render sampleIndex sampleIndexed .unlimited .fresh).1 = .error f ∧
    f.Escapes := by
  have mapped : RenderOptions.unlimited.Mapped := ⟨⟨[], rfl⟩, ⟨[], rfl⟩⟩
  have concludes := @failuresReturned samplePlain _ mapped sampleIndex sampleIndexed .fresh
  rw [sampleIndexRaises] at concludes
  exact ⟨_, sampleIndexRaises, concludes⟩

/- So there are renders without a result. -/
theorem indexEscapes : ¬ ∀ (e : Engine) (options : RenderOptions) (text : String) (vars : Value) (w : World),
    options.Mapped → ∃ r, (e.render text vars options w).1 = .ok r := by
  intro always
  obtain ⟨r, ended⟩ := always samplePlain .unlimited sampleIndex sampleIndexed .fresh ⟨⟨[], rfl⟩, ⟨[], rfl⟩⟩
  rw [sampleIndexRaises] at ended
  cases ended

end Stencil
