import Mathlib
import Stencil.Proofs.Translation
import Stencil.Settings.Printer
import Stencil.Settings.Reader

/-! Settings that are read, and read again. Whatever spelling a field was given in, what is read holds what the field
is declared to hold, so that settings written out as a mapping, with every field in it, are read as they are. -/
namespace Stencil

variable {α β ε : Type}

namespace Value

/- What stands under names, one below the other. -/
def at? (v : Value) : List String → Option Value
  | [] => some v
  | name :: rest => match v with
    | .map es => (Entries.get? es name).bind (at? · rest)
    | _ => none

end Value

/- What a field of the settings is declared to hold. -/
inductive FieldType where
  | text | whole | binary | truth | values | handlers

inductive FieldType.Holds : FieldType → Value → Prop where
  | text (s : String) : Holds .text (.str s)
  | whole (n : Int) : Holds .whole (.int n)
  | binary (x : Binary64) : Holds .binary (.float x)
  | truth (b : Bool) : Holds .truth (.bool b)
  | values {es} (keys : ∀ e ∈ es, ∃ s, e.1 = .str s) : Holds .values (.map es)
  | handlers {es} (each : ∀ e ∈ es, ∃ s c, e = (.str s, .callable c)) : Holds .handlers (.map es)

abbrev Fields := List (String × FieldType)

/- A mapping with exactly the fields, in their order, each of which holds what it is declared to hold. -/
def Fields.Fit (fields : Fields) (es : Entries) : Prop :=
  List.Forall₂ (fun f e => e.1 = .str f.1 ∧ f.2.Holds e.2) fields es

def Delimiters.fields : Fields :=
  Delimiters.standard.named.map (fun p => (p.1, .text)) ++ [("ignore_case", .truth)]

def Limits.fields : Fields := [("max_depth", .whole), ("allow_empty_variables", .truth)]

def RenderOptions.fields : Fields := [("strict", .truth), ("timeout_ms", .binary), ("auto_escape", .truth),
  ("default_values", .values), ("variable_handlers", .handlers)]

def CacheSettings.fields : Fields := [("enabled", .truth), ("max_entries", .whole)]

def IncludeSettings.fields : Fields := [("dir", .text), ("suffix", .text)]

namespace Settings

/- How a field is read again once it was read: it holds what it is declared to hold, and is read as it is. -/
structure Settles (read : Reader α) (write : α → Value) (type : FieldType) (x : α) : Prop where
  holds : type.Holds (write x)
  again : ∀ path, read path (write x) = .ok x

/- What becomes of a field. -/
structure Kept (es : Entries) (name : String) (read : Reader α) (write : α → Value) (type : FieldType)
    (standard x : α) : Prop extends Settles read write type x where
  default : es.get? name = none → write x = write standard

variable {read : Reader α} {write : α → Value} {type : FieldType} {standard x : α} {es fs : Entries}
  {path : List String} {name title : String} {fields : Fields} {v w : Value}

theorem fieldKept (settles : ∀ path v x, read path v = .ok x → Settles read write type x)
    (settled : Settles read write type standard) (ok : field es path name read standard = .ok x) :
    Kept es name read write type standard x := by
  rw [field] at ok
  split at ok
  · rename_i w found
    exact ⟨settles _ w x ok, fun absent => by rw [found] at absent; cases absent⟩
  · cases ok
    exact ⟨settled, fun _ => rfl⟩

theorem alwaysKept (settles : ∀ x, Settles read write type x) (ok : field es path name read standard = .ok x) :
    Kept es name read write type standard x :=
  fieldKept (fun _ _ x _ => settles x) (settles standard) ok

theorem fieldAgain (settles : Settles read write type x) (found : fs.get? name = some (write x)) :
    field fs path name read standard = .ok x := by
  rw [field, found]
  exact settles.again _

theorem textSettles (s : String) : Settles text .str .text s := ⟨.text s, fun _ => rfl⟩

theorem boolSettles (b : Bool) : Settles bool .bool .truth b := ⟨.truth b, fun _ => rfl⟩

theorem intSettles (n : Int) : Settles int .int .whole n := ⟨.whole n, fun _ => rfl⟩

theorem switchSettles (b : Bool) : Settles (fun p v => do return Switch.ofBool (← bool p v)) Switch.given .truth
    (Switch.ofBool b) := ⟨.truth b, fun _ => rfl⟩

theorem timeoutSettles (x : Binary64) : Settles (fun p v => do return Timeout.real (← real p v)) Timeout.toValue .binary
    (Timeout.real x) := ⟨.binary x, fun _ => rfl⟩

/- Texts with values, as a mapping. -/
def written (write : α → Value) (pairs : List (String × α)) : Value :=
  .map (Entries.ofTexts (pairs.map (fun p => (p.1, write p.2))))

theorem putTextKeys (pairs : List (String × α)) (key : String) (x : α) :
    (putText pairs key x).map (·.1) = if key ∈ pairs.map (·.1) then pairs.map (·.1) else pairs.map (·.1) ++ [key] := by
  have found : (pairs.any (·.1 == key)) = decide (key ∈ pairs.map (·.1)) := by
    rw [Bool.eq_iff_iff]
    simp
  rw [putText, found]
  by_cases present : key ∈ pairs.map (·.1)
  · simp only [present, decide_true, if_true, List.map_map]
    refine List.map_congr_left fun p _ => ?_
    simp only [Function.comp_apply]
    split
    · rename_i same
      exact (beq_iff_eq.mp same).symm
    · rfl
  · simp [present]

/- Keys that were put in one after the other are distinct. -/
theorem putDistinct (pairs : List (String × α)) : ((pairs.foldl (fun ps p => putText ps p.1 p.2) []).map (·.1)).Nodup := by
  induction pairs using List.reverseRecOn with
  | nil => exact .nil
  | append_singleton pairs p ih =>
    rw [List.foldl_append, List.foldl_cons, List.foldl_nil, putTextKeys]
    split
    · exact ih
    · rename_i new
      refine List.nodup_append.mpr ⟨ih, List.nodup_singleton _, fun a old b last => ?_⟩
      obtain rfl := List.mem_singleton.mp last
      exact fun same => new (same ▸ old)

/- Distinct keys are put in as they come. -/
theorem putAgain {pairs : List (String × α)} (distinct : (pairs.map (·.1)).Nodup) :
    pairs.foldl (fun ps p => putText ps p.1 p.2) [] = pairs := by
  induction pairs using List.reverseRecOn with
  | nil => rfl
  | append_singleton pairs p ih =>
    rw [List.map_append, List.nodup_append] at distinct
    obtain ⟨before, -, apart⟩ := distinct
    have new : pairs.any (·.1 == p.1) = false := by
      rw [List.any_eq_false]
      intro q member same
      exact apart q.1 (List.mem_map_of_mem member) p.1 (by simp) (beq_iff_eq.mp same)
    rw [List.foldl_append, ih before, List.foldl_cons, List.foldl_nil, putText, new]
    rfl

theorem entriesAgain (again : ∀ path x, read path (write x) = .ok x) (path : List String) (pairs : List (String × α)) :
    entries read path (Entries.ofTexts (pairs.map (fun p => (p.1, write p.2)))) = .ok pairs := by
  induction pairs with
  | nil => rfl
  | cons p pairs ih =>
    simp only [List.map_cons, Entries.ofTexts] at ih ⊢
    rw [entries, ih, (textSettles p.1).again]
    change (read _ _ >>= fun x => _) = _
    rw [again]
    rfl

theorem mappingSettles (again : ∀ path x, read path (write x) = .ok x)
    (holds : ∀ pairs : List (String × α), type.Holds (written write pairs)) {pairs : List (String × α)}
    (ok : mapping read path v = .ok pairs) : Settles (mapping read) (written write) type pairs := by
  unfold mapping at ok
  split at ok
  · obtain ⟨given, -, ok⟩ := boundOk ok
    cases ok
    refine ⟨holds _, fun path => ?_⟩
    simp only [written, mapping, entriesAgain again]
    exact congrArg Except.ok (putAgain (putDistinct given))
  · cases ok

theorem valuesSettle {pairs : List (String × Value)} (ok : mapping anything path v = .ok pairs) :
    Settles (mapping anything) (written id) .values pairs := by
  refine mappingSettles (fun _ _ => rfl) (fun pairs => .values ?_) ok
  intro e member
  obtain ⟨p, -, rfl⟩ := List.mem_map.mp member
  exact ⟨p.1, rfl⟩

theorem handlersSettle {pairs : List (String × Callable)} (ok : mapping callable path v = .ok pairs) :
    Settles (mapping callable) (written .callable) .handlers pairs := by
  have again (path : List String) (c : Callable) : callable path (.callable c) = .ok c := rfl
  refine mappingSettles again (fun pairs => .handlers ?_) ok
  intro e member
  obtain ⟨p, inside, rfl⟩ := List.mem_map.mp member
  obtain ⟨q, -, rfl⟩ := List.mem_map.mp inside
  exact ⟨q.1, q.2, rfl⟩

/- Two mappings with the same keys, and related values under them. -/
def Alike (R : String → Value → Value → Prop) (fs gs : Entries) : Prop :=
  List.Forall₂ (fun f g => ∃ key, f.1 = .str key ∧ g.1 = .str key ∧ R key f.2 g.2) fs gs

theorem alikeFound {R : String → Value → Value → Prop} {gs : Entries} (alike : Alike R fs gs) (name : String) :
    (fs.get? name = none ∧ gs.get? name = none) ∨ ∃ f g, fs.get? name = some f ∧ gs.get? name = some g ∧ R name f g := by
  induction alike with
  | nil => exact .inl ⟨rfl, rfl⟩
  | @cons f g fs gs here _ ih =>
    obtain ⟨key, first, second, related⟩ := here
    rw [Entries.get?_cons, Entries.get?_cons, first, second]
    by_cases this : key = name
    · subst this
      exact .inr ⟨f.2, g.2, by simp [Value.isText], by simp [Value.isText], related⟩
    · simpa [Value.isText, this] using ih

theorem fitKeys (fit : fields.Fit es) : es.map (·.1) = (fields.map (·.1)).map .str := by
  induction fit with
  | nil => rfl
  | cons here _ ih => exact congrArg₂ List.cons here.1 ih

variable {names : List String}

theorem sectionAgain (title : String) (path : List String)
    (keys : es.map (·.1) = names.map .str) : section? title names path (.map es) = .ok es := by
  have known : unknownKeys names es = [] := by
    rw [unknownKeys, keys, List.filter_eq_nil_iff]
    intro k member
    obtain ⟨name, inside, rfl⟩ := List.mem_map.mp member
    have named : names.any (fun n => Value.isText n (.str name)) = true :=
      List.any_eq_true.mpr ⟨name, inside, by simp [Value.isText]⟩
    simp [named]
  rw [section?, known]
  rfl

/- Where a section was opened, its fields are those of the value. -/
theorem sectionAt (opened : section? title names path v = .ok es) (name : String) (rest : List String) :
    v.at? (name :: rest) = (es.get? name).bind (·.at? rest) := by
  unfold section? at opened
  split at opened
  · cases opened
    rfl
  · split at opened
    · cases opened
      rfl
    · split at opened <;> cases opened
  · cases opened

theorem mapAt (es : Entries) (name : String) : (Value.map es).at? [name] = es.get? name := by
  simp [Value.at?]

/- The fields of a section that was read from entries, beside the standard ones. -/
inductive Rows (es : Entries) : Fields → Entries → Entries → Prop where
  | nil : Rows es [] [] []
  | cons {α : Type} {name : String} {read : Reader α} {write : α → Value} {type : FieldType} {standard x : α}
      {fields : Fields} {fs gs : Entries} (kept : Kept es name read write type standard x)
      (rest : Rows es fields fs gs) :
      Rows es ((name, type) :: fields) ((.str name, write x) :: fs) ((.str name, write standard) :: gs)

theorem Rows.fit {gs : Entries} (rows : Rows es fields fs gs) : fields.Fit fs := by
  induction rows with
  | nil => exact .nil
  | cons kept _ ih => exact .cons ⟨rfl, kept.holds⟩ ih

theorem Rows.alike {gs : Entries} (rows : Rows es fields fs gs) :
    Alike (fun key f g => es.get? key = none → f = g) fs gs := by
  induction rows with
  | nil => exact .nil
  | cons kept _ ih => exact .cons ⟨_, rfl, rfl, kept.default⟩ ih

/- A field that was not given is standard. -/
theorem fieldDefault (opened : section? title names path v = .ok es) {gs : Entries}
    (alike : Alike (fun key f g => es.get? key = none → f = g) fs gs) (absent : v.at? [name] = none) :
    fs.get? name = gs.get? name := by
  rcases alikeFound alike name with ⟨first, second⟩ | ⟨f, g, first, second, same⟩
  · rw [first, second]
  · rw [sectionAt opened] at absent
    rw [first, second, same (by simpa [Value.at?] using absent)]

theorem acceptOk {checked : Except SettingsProblem α} {x : α} (ok : accept path checked = .ok x) : checked = .ok x := by
  cases checked with
  | ok y => exact congrArg Except.ok (Except.ok.inj ok)
  | error problem => cases ok

/- A check refuses what it is given, or passes it on. -/
theorem passed {refused : Prop} [Decidable refused] {e : ε} {x y : α}
    (ok : (if refused then .error e else .ok x : Except ε α) = .ok y) : x = y := by
  split at ok
  · cases ok
  · exact Except.ok.inj ok

theorem bindOk {x : Except ε α} {f : α → Except ε β} {a : α} {r : Except ε β} (ok : x = .ok a) (next : f a = r) :
    (x >>= f) = r := by
  rw [ok]
  exact next

/- What becomes of a section. -/
structure Rereads (read : Reader α) (plain : α → Entries) (fields : Fields) (standard : α) (v : Value) (x : α) :
    Prop where
  fit : fields.Fit (plain x)
  default : ∀ name, v.at? [name] = none → (plain x).get? name = (plain standard).get? name
  again : ∀ path, read path (.map (plain x)) = .ok x

theorem Rows.rereads {plain : α → Entries} (rows : Rows es fields (plain x) (plain standard))
    (opened : section? title names path v = .ok es)
    (again : ∀ path, section? title (fields.map (·.1)) path (.map (plain x)) = .ok (plain x) →
      read path (.map (plain x)) = .ok x) : Rereads read plain fields standard v x where
  fit := rows.fit
  default _ absent := fieldDefault opened rows.alike absent
  again path := again path (sectionAgain title path (fitKeys rows.fit))

end Settings

open Settings

variable {path : List String} {v : Value}

theorem Limits.rereads {l : Limits} (ok : Limits.read path v = .ok l) :
    Rereads Limits.read Limits.toEntries Limits.fields .standard v l := by
  obtain ⟨es, opened, ok⟩ := boundOk ok
  obtain ⟨depth, first, ok⟩ := boundOk ok
  obtain ⟨allow, second, ok⟩ := boundOk ok
  have checked := acceptOk ok
  obtain rfl := passed checked
  have depthKept := alwaysKept intSettles first
  have allowKept := alwaysKept boolSettles second
  have rows := Rows.cons depthKept (Rows.cons allowKept Rows.nil)
  refine Rows.rereads rows opened fun path opens => bindOk opens ?_
  refine bindOk (fieldAgain depthKept.toSettles rfl) ?_
  exact bindOk (fieldAgain allowKept.toSettles rfl) (congrArg (accept path) checked)

theorem CacheSettings.rereads {c : CacheSettings} (ok : CacheSettings.read path v = .ok c) :
    Rereads CacheSettings.read CacheSettings.toEntries CacheSettings.fields .standard v c := by
  obtain ⟨es, opened, ok⟩ := boundOk ok
  obtain ⟨enabled, first, ok⟩ := boundOk ok
  obtain ⟨limit, second, ok⟩ := boundOk ok
  have checked := acceptOk ok
  obtain rfl := passed checked
  have enabledKept := alwaysKept boolSettles first
  have limitKept := alwaysKept intSettles second
  have rows := Rows.cons enabledKept (Rows.cons limitKept Rows.nil)
  refine Rows.rereads rows opened fun path opens => bindOk opens ?_
  refine bindOk (fieldAgain enabledKept.toSettles rfl) ?_
  exact bindOk (fieldAgain limitKept.toSettles rfl) (congrArg (accept path) checked)

theorem IncludeSettings.rereads {c : IncludeSettings} (ok : IncludeSettings.read path v = .ok c) :
    Rereads IncludeSettings.read IncludeSettings.toEntries IncludeSettings.fields .standard v c := by
  obtain ⟨es, opened, ok⟩ := boundOk ok
  obtain ⟨dir, first, ok⟩ := boundOk ok
  obtain ⟨suffix, second, ok⟩ := boundOk ok
  obtain rfl := Except.ok.inj ok
  have dirKept := alwaysKept textSettles first
  have suffixKept := alwaysKept textSettles second
  have rows := Rows.cons dirKept (Rows.cons suffixKept Rows.nil)
  refine Rows.rereads rows opened fun path opens => bindOk opens ?_
  refine bindOk (fieldAgain dirKept.toSettles rfl) ?_
  exact bindOk (fieldAgain suffixKept.toSettles rfl) rfl

theorem Delimiters.checkedSame {d e : Delimiters} (ok : d.checked = .ok e) : d = e := by
  rw [checked] at ok
  split at ok
  · cases ok
  · exact Except.ok.inj ok

theorem Delimiters.rereads {d : Delimiters} (ok : Delimiters.read path v = .ok d) :
    Rereads Delimiters.read Delimiters.toEntries Delimiters.fields .standard v d := by
  obtain ⟨es, opened, ok⟩ := boundOk ok
  have word {name standard s : String} (ok : field es path name text standard = .ok s) := alwaysKept textSettles ok
  obtain ⟨_, variableStart, ok⟩ := boundOk ok
  obtain ⟨_, variableEnd, ok⟩ := boundOk ok
  obtain ⟨_, conditionalStart, ok⟩ := boundOk ok
  obtain ⟨_, conditionalElse, ok⟩ := boundOk ok
  obtain ⟨_, conditionalEnd, ok⟩ := boundOk ok
  obtain ⟨_, loopStart, ok⟩ := boundOk ok
  obtain ⟨_, loopEnd, ok⟩ := boundOk ok
  obtain ⟨_, includeStart, ok⟩ := boundOk ok
  obtain ⟨_, commentStart, ok⟩ := boundOk ok
  obtain ⟨_, commentEnd, ok⟩ := boundOk ok
  obtain ⟨_, ignoreCase, ok⟩ := boundOk ok
  have checked := acceptOk ok
  obtain rfl := checkedSame checked
  have rows := Rows.cons (word variableStart) <| Rows.cons (word variableEnd) <| Rows.cons (word conditionalStart) <|
    Rows.cons (word conditionalElse) <| Rows.cons (word conditionalEnd) <| Rows.cons (word loopStart) <|
    Rows.cons (word loopEnd) <| Rows.cons (word includeStart) <| Rows.cons (word commentStart) <|
    Rows.cons (word commentEnd) <| Rows.cons (alwaysKept boolSettles ignoreCase) Rows.nil
  refine Rows.rereads rows opened fun path opens => bindOk opens ?_
  iterate 10 refine bindOk (fieldAgain (textSettles _) rfl) ?_
  exact bindOk (fieldAgain (boolSettles _) rfl) (congrArg (accept path) checked)

theorem RenderOptions.rereads {o : RenderOptions} (ok : RenderOptions.read path v = .ok o) :
    Rereads RenderOptions.read RenderOptions.toEntries RenderOptions.fields .standard v o := by
  obtain ⟨es, opened, ok⟩ := boundOk ok
  obtain ⟨strict, first, ok⟩ := boundOk ok
  obtain ⟨timeout, second, ok⟩ := boundOk ok
  obtain ⟨escape, third, ok⟩ := boundOk ok
  obtain ⟨defaults, fourth, ok⟩ := boundOk ok
  obtain ⟨handlers, fifth, ok⟩ := boundOk ok
  have checked := acceptOk ok
  obtain rfl := passed (mappedOk checked)
  have switch (path : List String) (v : Value) (s : Switch) (ok : (do return Switch.ofBool (← bool path v)) = .ok s) :
      Settles (fun p v => do return Switch.ofBool (← bool p v)) Switch.given .truth s := by
    obtain ⟨b, -, ok⟩ := boundOk ok
    cases ok
    exact switchSettles b
  have limit (path : List String) (v : Value) (t : Timeout) (ok : (do return Timeout.real (← real path v)) = .ok t) :
      Settles (fun p v => do return Timeout.real (← real p v)) Timeout.toValue .binary t := by
    obtain ⟨x, -, ok⟩ := boundOk ok
    cases ok
    exact timeoutSettles x
  have nothing {α : Type} {read : Reader α} : mapping read [] (.map []) = .ok [] := rfl
  have strictKept := fieldKept switch (switchSettles _) first
  have timeoutKept := fieldKept limit (timeoutSettles _) second
  have escapeKept := fieldKept switch (switchSettles _) third
  have defaultsKept := fieldKept (fun _ _ _ => valuesSettle) (valuesSettle nothing) fourth
  have handlersKept := fieldKept (fun _ _ _ => handlersSettle) (handlersSettle nothing) fifth
  have plainly : Value.map (Entries.ofTexts defaults) = written id defaults := by simp [written]
  rw [plainly] at checked ⊢
  have rows := Rows.cons strictKept <| Rows.cons timeoutKept <| Rows.cons escapeKept <| Rows.cons defaultsKept <|
    Rows.cons handlersKept Rows.nil
  refine Rows.rereads rows opened fun path opens => bindOk opens ?_
  refine bindOk (fieldAgain strictKept.toSettles rfl) ?_
  refine bindOk (fieldAgain timeoutKept.toSettles rfl) ?_
  refine bindOk (fieldAgain escapeKept.toSettles rfl) ?_
  refine bindOk (fieldAgain defaultsKept.toSettles rfl) ?_
  refine bindOk (fieldAgain handlersKept.toSettles rfl) ?_
  rw [plainly]
  exact congrArg (accept path) checked

namespace Settings

theorem renderStandard : RenderOptions.read [] .null = .ok .standard := by
  have limit : RenderOptions.standard.timeout.isNegative = false := by decide +kernel
  have absent {α : Type} (name : String) (read : Reader α) (standard : α) :
      field [] [] name read standard = .ok standard := rfl
  have opened : section? "RenderOptions" RenderOptions.names [] .null = .ok [] := rfl
  simp only [RenderOptions.read, opened, absent, bind, Except.bind, RenderOptions.checked, limit, Bool.false_eq_true,
    if_false]
  rfl

/- The sections, each with its fields. -/
def declared : List (String × Fields) := [("lexer", Delimiters.fields), ("parser", Limits.fields),
  ("render", RenderOptions.fields), ("cache", CacheSettings.fields), ("includes", IncludeSettings.fields)]

/- Settings as a mapping, with every section and every field in it, each of which holds what it is declared to hold. -/
def Typed (plain : Entries) : Prop := ∃ sections depth,
  plain = sections ++ [(.str "max_include_depth", .int depth)] ∧
  List.Forall₂ (fun d e => ∃ es, e = (.str d.1, .map es) ∧ d.2.Fit es) declared sections

variable {read : Reader α} {plain : α → Entries} {fields : Fields} {standard x : α} {es : Entries} {name title : String}
  {names : List String}

/- What becomes of a section among the settings. -/
structure Part (es : Entries) (name : String) (read : Reader α) (plain : α → Entries) (fields : Fields)
    (standard x : α) : Prop extends Rereads read plain fields standard ((es.get? name).getD .null) x where
  absent : es.get? name = none → x = standard

theorem partRead (reads : ∀ path v x, read path v = .ok x → Rereads read plain fields standard v x)
    (empty : read [] .null = .ok standard) (ok : field es [] name read standard = .ok x) :
    Part es name read plain fields standard x := by
  rw [field] at ok
  cases given : es.get? name with
  | some w =>
    rw [given] at ok
    refine ⟨?_, fun absent => by cases given.symm.trans absent⟩
    rw [given]
    exact reads _ w x ok
  | none =>
    rw [given] at ok
    cases ok
    refine ⟨?_, fun _ => rfl⟩
    rw [given]
    exact reads [] .null _ empty

theorem partAgain {fs : Entries} (part : Part es name read plain fields standard x)
    (found : fs.get? name = some (.map (plain x))) : field fs [] name read standard = .ok x := by
  rw [field, found]
  exact part.again _

/- A field of a section that was not given is standard, be the section given or not. -/
theorem partDefault (opened : section? title names [] v = .ok es) (part : Part es name read plain fields standard x)
    {field : String} (absent : v.at? [name, field] = none) :
    (Value.map (plain x)).at? [field] = (Value.map (plain standard)).at? [field] := by
  rw [mapAt, mapAt]
  refine part.default field ?_
  rw [sectionAt opened] at absent
  cases given : es.get? name with
  | none => rfl
  | some w => rwa [given] at absent

/- The sections of settings that were read from entries, beside the standard ones. -/
inductive Parts (es : Entries) : List (String × Fields) → Entries → Entries → Prop where
  | nil : Parts es [] [] []
  | cons {α : Type} {name : String} {read : Reader α} {plain : α → Entries} {fields : Fields} {standard x : α}
      {sections : List (String × Fields)} {fs gs : Entries} (part : Part es name read plain fields standard x)
      (rest : Parts es sections fs gs) : Parts es ((name, fields) :: sections)
        ((.str name, .map (plain x)) :: fs) ((.str name, .map (plain standard)) :: gs)

variable {sections : List (String × Fields)} {fs gs : Entries}

theorem Parts.fit (parts : Parts es sections fs gs) :
    List.Forall₂ (fun d e => ∃ es, e = (.str d.1, .map es) ∧ d.2.Fit es) sections fs := by
  induction parts with
  | nil => exact .nil
  | cons part _ ih => exact .cons ⟨_, rfl, part.fit⟩ ih

theorem Parts.alike (parts : Parts es sections fs gs) : Alike (fun key f g => es.get? key = none → f = g) fs gs := by
  induction parts with
  | nil => exact .nil
  | cons part _ ih => exact .cons ⟨_, rfl, rfl, fun absent => by rw [part.absent absent]⟩ ih

theorem Parts.deeper (opened : section? title names [] v = .ok es) (parts : Parts es sections fs gs) (field : String) :
    Alike (fun key f g => v.at? [key, field] = none → f.at? [field] = g.at? [field]) fs gs := by
  induction parts with
  | nil => exact .nil
  | cons part _ ih => exact .cons ⟨_, rfl, rfl, partDefault opened part⟩ ih

/- What was read as settings holds what it is declared to hold; what was not given, be it a section or a field of one, is
standard; and reading all that was read, as a mapping, gives the same settings again. -/
theorem readRereads {c : Settings} (ok : Settings.read v = .ok c) :
    Typed c.toEntries ∧
    (∀ name, v.at? [name] = none →
      (Value.map c.toEntries).at? [name] = (Value.map Settings.standard.toEntries).at? [name]) ∧
    (∀ name field, v.at? [name, field] = none →
      (Value.map c.toEntries).at? [name, field] = (Value.map Settings.standard.toEntries).at? [name, field]) ∧
    Settings.read (.map c.toEntries) = .ok c := by
  obtain ⟨es, opened, ok⟩ := boundOk ok
  obtain ⟨delimiters, first, ok⟩ := boundOk ok
  obtain ⟨limits, second, ok⟩ := boundOk ok
  obtain ⟨render, third, ok⟩ := boundOk ok
  obtain ⟨cache, fourth, ok⟩ := boundOk ok
  obtain ⟨includes, fifth, ok⟩ := boundOk ok
  obtain ⟨depth, sixth, ok⟩ := boundOk ok
  obtain rfl := Except.ok.inj ok
  have lexer := partRead (fun _ _ _ => Delimiters.rereads) rfl first
  have parser := partRead (fun _ _ _ => Limits.rereads) rfl second
  have options := partRead (fun _ _ _ => RenderOptions.rereads) renderStandard third
  have memory := partRead (fun _ _ _ => CacheSettings.rereads) rfl fourth
  have files := partRead (fun _ _ _ => IncludeSettings.rereads) rfl fifth
  have nesting := alwaysKept intSettles sixth
  have parts := Parts.cons lexer <| Parts.cons parser <| Parts.cons options <| Parts.cons memory <| Parts.cons files .nil
  refine ⟨⟨_, depth, rfl, parts.fit⟩, fun name absent => ?_, fun name field absent => ?_, ?_⟩
  · rw [mapAt, mapAt]
    exact fieldDefault opened (List.rel_append parts.alike (.cons ⟨_, rfl, rfl, nesting.default⟩ .nil)) absent
  · have deeper : Alike (fun key f g => v.at? [key, field] = none → f.at? [field] = g.at? [field])
        (Settings.toEntries ⟨delimiters, limits, render, cache, includes, depth⟩) Settings.standard.toEntries :=
      List.rel_append (parts.deeper opened field) (.cons ⟨_, rfl, rfl, fun _ => rfl⟩ .nil)
    rw [Value.at?, Value.at?]
    rcases alikeFound deeper name with ⟨first, second⟩ | ⟨f, g, first, second, same⟩
    · rw [first, second]
    · rw [first, second]
      exact same absent
  · refine bindOk (sectionAgain _ _ rfl) ?_
    refine bindOk (partAgain lexer rfl) ?_
    refine bindOk (partAgain parser rfl) ?_
    refine bindOk (partAgain options rfl) ?_
    refine bindOk (partAgain memory rfl) ?_
    refine bindOk (partAgain files rfl) ?_
    exact bindOk (fieldAgain nesting.toSettles rfl) rfl

/- Settings that are given in other spellings, with a section that is empty, one that is not there, and two keys that
become the same text. -/
def sampleGiven : Value := .map [(.str "lexer", .null),
  (.str "parser", .map [(.str "max_depth", .str " 1_0 "), (.str "allow_empty_variables", .str "Yes")]),
  (.str "render", .map [(.str "timeout_ms", .int 250),
    (.str "default_values", .map [(.int 1, .str "a"), (.str "1", .null)]),
    (.str "variable_handlers", .map [(.str "x", .callable (.builtin .upper))])]),
  (.str "cache", .map [(.str "max_entries", .bool true)])]

theorem readRereadsSpelled : ∃ c, Settings.read sampleGiven = .ok c ∧ c.limits = ⟨10, true⟩ ∧ c.cache = ⟨true, 1⟩ ∧
    Typed c.toEntries ∧
    (sampleGiven.at? ["render", "strict"] = none ∧ (Value.map c.toEntries).at? ["render", "strict"] =
      (Value.map Settings.standard.toEntries).at? ["render", "strict"]) ∧
    Settings.read (.map c.toEntries) = .ok c := by
  have parts : (Settings.read sampleGiven).toOption.map (fun c => (c.limits, c.cache)) =
      some (⟨10, true⟩, ⟨true, 1⟩) := by decide +kernel
  have absent : sampleGiven.at? ["render", "strict"] = none := by cbv
  cases ok : Settings.read sampleGiven with
  | error e =>
    rw [ok] at parts
    cases parts
  | ok c =>
    rw [ok] at parts
    obtain ⟨limits, cache⟩ := Prod.mk.inj (Option.some.inj parts)
    obtain ⟨typed, -, deeper, again⟩ := readRereads ok
    exact ⟨c, rfl, limits, cache, typed, ⟨absent, deeper _ _ absent⟩, again⟩

end Settings
end Stencil
