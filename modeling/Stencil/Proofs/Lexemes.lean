import Stencil.Proofs.Grammar

/-! The lexemes of an expression. A text has at most one list of them; blanks around the text add nothing
to it, and every name among them is a dotted path whose parts are not empty. -/
namespace Stencil.Expr

open Text

inductive Lexes : List Char → List Lexeme → Prop where
  | nil : Lexes [] []
  | blank {c s ls} (blank : isBlank c = true) (others : Lexes s ls) : Lexes (c :: s) ls
  | lexeme {c s l n ls} (solid : isBlank c = false) (found : lexeme? c s = some (l, n))
      (others : Lexes (s.drop n) ls) : Lexes (c :: s) (l :: ls)

theorem scannedLexes {place : Nat} {s : List Char} {ts : List Token} (ok : scanFrom place s = .ok ts) :
    Lexes s (lexemes ts) := by
  fun_induction scanFrom place s generalizing ts with
  | case1 =>
    cases ok
    exact .nil
  | case2 place c s blank ih => exact .blank blank (ih ok)
  | case3 place c s solid l n found ts' others ih =>
    cases ok
    exact .lexeme (by simpa using solid) found (ih others)
  | case4 => simp at ok
  | case5 => simp at ok

theorem lexesScanned {s : List Char} {ls : List Lexeme} (lexed : Lexes s ls) (place : Nat) :
    ∃ ts, scanFrom place s = .ok ts ∧ lexemes ts = ls := by
  induction lexed generalizing place with
  | nil => exact ⟨[], by rw [scanFrom], rfl⟩
  | blank blank _ ih =>
    obtain ⟨ts, ok, same⟩ := ih (place + 1)
    exact ⟨ts, by simp only [scanFrom, blank, if_true, ok], same⟩
  | @lexeme c s l n ls solid found _ ih =>
    obtain ⟨ts, ok, same⟩ := ih (place + n + 1)
    refine ⟨⟨l, place⟩ :: ts, ?_, by simp [same]⟩
    rw [scanFrom]
    simp [solid, found, ok]

theorem parseReads {text : String} {e : Expr} :
    parse text = .ok e ↔ ∃ ls, Lexes text.toList ls ∧ Reads (.binary .disjunction) ls [e] [] := by
  constructor
  · intro ok
    simp only [parse] at ok
    split at ok
    · simp at ok
    · rename_i ts scanned
      exact ⟨lexemes ts, scannedLexes scanned, ofTokensReads.mp ok⟩
  · rintro ⟨ls, lexed, reads⟩
    obtain ⟨ts, scanned, rfl⟩ := lexesScanned lexed 0
    simp only [parse, scan, scanned]
    exact ofTokensReads.mpr reads

/- What a lexeme can be, and how far it then goes. -/
inductive Begins (c : Char) (s : List Char) : Lexeme → Nat → Prop where
  | text {m} (quote : isQuote c = true) (closed : closingQuote? c s = some m) :
      Begins c s (.text (String.ofList (unescape (s.take m)))) (m + 1)
  | number {m} (digits : numberLength? (c :: s) = some m) :
      Begins c s (.number (String.ofList ((c :: s).take m))) (m - 1)
  | operator {o} (first : operator? (c :: s) = some o) :
      Begins c s (.operator o) (o.spelling.length - 1)
  | mark {l} (mark : c = '(' ∨ c = ')' ∨ c = ',') (other : ∀ path, l ≠ .name path) : Begins c s l 0
  | keyword {k} (start : isNameStart c = true) : Begins c s (.keyword k) (nameLength s)
  | name (start : isNameStart c = true) :
      Begins c s (.name (String.ofList (c :: s.take (nameLength s)))) (nameLength s)

theorem lexemeBegins {c : Char} {s : List Char} {l : Lexeme} {n : Nat}
    (found : lexeme? c s = some (l, n)) : Begins c s l n := by
  simp only [lexeme?] at found
  split at found
  · rename_i m closed
    cases found
    split at closed
    · rename_i quote
      exact .text quote closed
    · simp at closed
  · split at found
    · rename_i m digits
      cases found
      exact .number digits
    · split at found
      · rename_i o first
        cases found
        exact .operator first
      · split at found
        · cases found
          exact .mark (.inl ‹_›) (by simp)
        · split at found
          · cases found
            exact .mark (.inr (.inl ‹_›)) (by simp)
          · split at found
            · cases found
              exact .mark (.inr (.inr ‹_›)) (by simp)
            · split at found
              · rename_i start
                split at found
                · cases found
                  exact .keyword start
                · cases found
                  exact .name start
              · simp at found

theorem piecesGrow {sep c : Char} (other : c ≠ sep) (s : List Char) :
    ∃ p ps, pieces sep s = p :: ps ∧ pieces sep (c :: s) = (c :: p) :: ps := by
  obtain ⟨p, ps, cut⟩ := List.exists_cons_of_ne_nil (pieces_ne_nil sep s)
  exact ⟨p, ps, cut, by simp [pieces, other, cut]⟩

theorem dotIsNoPart {c : Char} (part : isNameRest c = true) : c ≠ '.' := by
  rintro rfl
  have never : isNameRest '.' = false := by decide +kernel
  simp [never] at part

/- A name is made of parts and of dots between them. -/
theorem nameChars (s : List Char) : ∀ c ∈ s.take (nameLength s), isNameRest c = true ∨ c = '.' := by
  induction s with
  | nil => simp
  | cons c s ih =>
    simp only [nameLength]
    split
    · rename_i part
      rw [List.take_succ_cons]
      exact List.forall_mem_cons.mpr ⟨.inl part, ih⟩
    · split
      · rename_i _ goes
        simp only [Bool.and_eq_true, decide_eq_true_eq] at goes
        rw [List.take_succ_cons]
        exact List.forall_mem_cons.mpr ⟨.inr goes.1, ih⟩
      · simp

/- Behind each dot of a name something stands. -/
theorem namePieces (s : List Char) : ∀ p ∈ (pieces '.' (s.take (nameLength s))).tail, p ≠ [] := by
  induction s with
  | nil => simp [pieces]
  | cons c s ih =>
    simp only [nameLength]
    split
    · rename_i part
      obtain ⟨p, ps, cut, grown⟩ := piecesGrow (dotIsNoPart part) (s.take (nameLength s))
      simpa [grown, cut] using ih
    · split
      · rename_i _ goes
        simp only [Bool.and_eq_true, decide_eq_true_eq] at goes
        obtain ⟨rfl, follows⟩ := goes
        cases s with
        | nil => simp at follows
        | cons d s =>
          have part : isNameRest d = true := by simpa using follows
          obtain ⟨p, ps, cut, grown⟩ := piecesGrow (dotIsNoPart part) (s.take (nameLength s))
          simp only [nameLength, part, if_true, List.take_succ_cons] at ih ⊢
          simpa [pieces_cons_self, grown] using ih
      · simp [pieces]

theorem cutPieces (sep : Char) (s : List Char) : (pieces sep s).head? = some (cut sep s).1 := by
  induction s with
  | nil => rfl
  | cons c s ih =>
    by_cases same : c = sep
    · simp [same, pieces, cut]
    · obtain ⟨p, ps, left, grown⟩ := piecesGrow same s
      rw [left, List.head?_cons, Option.some.injEq] at ih
      simp only [grown, List.head?_cons, ih, cut, List.dropWhile_cons, List.takeWhile_cons]
      simp only [bne_iff_ne, ne_eq, same, not_false_eq_true, if_true]
      cases s.dropWhile (· != sep) <;> rfl

/- A name that leads somewhere leads first to its root. -/
def Rooted (path : String) : Prop := ∃ rest, Path.segments path = Path.root path :: rest

theorem startIsNoDot {c : Char} (start : isNameStart c = true) : c ≠ '.' := by
  rintro rfl
  have never : isNameStart '.' = false := by decide +kernel
  simp [never] at start

theorem nameRooted {c : Char} {s : List Char} {path : String} {n : Nat}
    (found : lexeme? c s = some (.name path, n)) : Rooted path := by
  cases lexemeBegins found with
  | mark _ other => exact absurd rfl (other path)
  | name start =>
    obtain ⟨p, ps, left, grown⟩ := piecesGrow (startIsNoDot start) (s.take (nameLength s))
    have solid : ∀ q ∈ (c :: p) :: ps, (!q.isEmpty) = true := by
      have behind := namePieces s
      rw [left] at behind
      simpa using behind
    have first := cutPieces '.' (c :: s.take (nameLength s))
    rw [grown, List.head?_cons, Option.some.injEq] at first
    refine ⟨ps.map String.ofList, ?_⟩
    simp only [Path.segments, Path.root, String.toList_ofList, grown, List.filter_eq_self.mpr solid, ← first]
    rfl

/- A path as the lexer gives it. -/
def Named (path : String) : Prop := ∃ c s n, lexeme? c s = some (.name path, n)

theorem lexesNamed {s : List Char} {ls : List Lexeme} (lexed : Lexes s ls) {path : String}
    (member : .name path ∈ ls) : Named path := by
  induction lexed with
  | nil => simp at member
  | blank _ _ ih => exact ih member
  | lexeme _ found _ ih =>
    rcases List.mem_cons.mp member with rfl | later
    · exact ⟨_, _, _, found⟩
    · exact ih later

theorem joinPaths {l : Level} {x : Lexeme} {join : Expr → Expr → Expr} (joins : l.join? x = some join)
    (left right : Expr) : (join left right).paths = left.paths ++ right.paths := by
  cases l <;> simp only [Level.join?] at joins <;> split at joins <;> cases joins <;> rfl

/- The paths that are read already when a phase begins. -/
def Phase.carried : Phase → List String
  | .chain _ left => left.paths
  | _ => []

theorem readsNames {phase : Phase} {ls rest : List Lexeme} {es : List Expr}
    (reads : Reads phase ls es rest) :
    rest ⊆ ls ∧ ∀ path ∈ pathsOf es, path ∈ phase.carried ∨ .name path ∈ ls := by
  induction reads with
  | disjunction _ ih | conjunction _ ih | comparison _ ih | unary _ ih => exact ih
  | binary _ _ first others =>
    refine ⟨List.Subset.trans others.1 first.1, fun path member => .inr ?_⟩
    rcases others.2 path member with left | behind
    · simpa [Phase.carried] using first.2 path (by simpa [pathsOf, Phase.carried] using left)
    · exact first.1 behind
  | stop => exact ⟨List.Subset.refl _, fun path member =>
      .inl (by simpa [pathsOf, Phase.carried] using member)⟩
  | @step _ _ x _ _ _ _ _ _ joins _ _ next others =>
    have later := List.subset_cons_of_subset x next.1
    refine ⟨List.Subset.trans others.1 later, fun path member => ?_⟩
    rcases others.2 path member with both | behind
    · simp only [Phase.carried, joinPaths joins, List.mem_append] at both ⊢
      rcases both with left | right
      · exact .inl left
      · have named := next.2 path (by simpa [pathsOf] using right)
        exact .inr (List.mem_cons_of_mem _ (by simpa [Phase.carried] using named))
    · exact .inr (later behind)
  | not _ ih => exact ⟨List.subset_cons_of_subset _ ih.1, fun path member =>
      (ih.2 path member).imp_right (List.mem_cons_of_mem _)⟩
  | text | number | keyword => exact ⟨List.subset_cons_self _ _, by simp [pathsOf, paths]⟩
  | group _ ih =>
    refine ⟨fun x member => List.mem_cons_of_mem _ (ih.1 (List.mem_cons_of_mem _ member)), ?_⟩
    exact fun path member => (ih.2 path member).imp_right (List.mem_cons_of_mem _)
  | path => exact ⟨List.subset_cons_self _ _, by simp [pathsOf, paths]⟩
  | nullary => exact ⟨fun x member => by simp [member], by simp [pathsOf, paths]⟩
  | call _ _ ih =>
    refine ⟨fun x member => by simp [ih.1 member], fun path member => .inr ?_⟩
    have named := (ih.2 path (by simpa [pathsOf, paths] using member)).resolve_left (by simp [Phase.carried])
    exact List.mem_cons_of_mem _ (List.mem_cons_of_mem _ named)
  | last _ ih => exact ⟨List.Subset.trans (List.subset_cons_self _ _) ih.1, ih.2⟩
  | more _ _ first others =>
    have later := List.Subset.trans (List.subset_cons_self _ _) first.1
    refine ⟨List.Subset.trans others.1 later, fun path member => ?_⟩
    rcases List.mem_append.mp member with here | there
    · exact first.2 path (by simpa [pathsOf] using here)
    · exact (others.2 path there).imp_right (@later _)

theorem parseNamed {text : String} {e : Expr} (ok : parse text = .ok e) {path : String}
    (member : path ∈ e.paths) : Named path := by
  obtain ⟨ls, lexed, reads⟩ := parseReads.mp ok
  have named := (readsNames reads).2 path (by simpa [pathsOf] using member)
  exact lexesNamed lexed (by simpa [Phase.carried] using named)

theorem parseRooted {text : String} {e : Expr} (ok : parse text = .ok e) {path : String}
    (member : path ∈ e.paths) : Rooted path := by
  obtain ⟨c, s, n, found⟩ := parseNamed ok member
  exact nameRooted found

end Stencil.Expr
