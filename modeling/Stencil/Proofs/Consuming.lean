import Stencil.Expr.Descent
import Stencil.Proofs.Descending
import Stencil.Proofs.Enclosing
import Stencil.Proofs.Reaching

/-! Expressions by descent. Each function leaves the cursor where the reader of lists stops that it corresponds to, and
that one has taken a token. So there is an amount of fuel for each token that is enough. What is left to refuse besides
syntax is an integer that is too long to be read. -/
namespace Stencil.Expr.Descent

open Stencil.Descent Text

variable {α : Type} {ts s rest : List Token} {t : Token} {place next stop : Nat}

/- A fault is one of syntax, or that of a number in the text that is not read. -/
def Blames (ts : List Token) (fault : SyntaxFault) : Prop :=
  fault.value? = none ∨ ∃ digits v, ⟨.number digits, fault.place⟩ ∈ ts ∧ numberValue digits = .error v ∧
    fault.value? = some v

/- The descent gives what the reader of lists gives, and its cursor stands where that one stops. -/
def Follows {p : List Token → Prop} (ts : List Token) (outcome : Except SyntaxFault (α × { rest // p rest }))
    (m : Descent SyntaxFault (α × Nat)) : Prop :=
  Settles (fun r => r.2 ≤ ts.length ∧ ∃ rest, outcome = .ok (r.1, rest) ∧ ts.drop r.2 = rest.val)
    (fun fault => outcome = .error fault ∧ Blames ts fault) m

/- The descent comes back behind the place that it was called at, and no further than to the end, or refuses what it
finds. -/
def Consumes (ts : List Token) (place : Nat) (m : Descent SyntaxFault (α × Nat)) : Prop :=
  Settles (fun r => place < r.2 ∧ r.2 ≤ ts.length) (Blames ts) m

variable {β : Type} {p q : List Token → Prop} {outcome : Except SyntaxFault (α × { rest // p rest })}
  {m : Descent SyntaxFault (α × Nat)}

theorem Follows.bind {outcome' : Except SyntaxFault (β × { rest // q rest })}
    {f : α × Nat → Descent SyntaxFault (β × Nat)} (first : Follows ts outcome m)
    (fails : ∀ fault, outcome = .error fault → outcome' = .error fault)
    (others : ∀ r : α × Nat, (r.2 ≤ ts.length ∧ ∃ rest, outcome = .ok (r.1, rest) ∧ ts.drop r.2 = rest.val) →
      Follows ts outcome' (f r)) : Follows ts outcome' (m >>= f) :=
  Settles.bind first (fun fault wrong => wrong.imp_left (fails fault)) others

theorem Follows.onward {outcome' : Except SyntaxFault (α × { rest // q rest })} (follows : Follows ts outcome m)
    (fails : ∀ fault, outcome = .error fault → outcome' = .error fault)
    (goes : ∀ a rest, outcome = .ok (a, rest) → ∃ rest', outcome' = .ok (a, rest') ∧ rest.val = rest'.val) :
    Follows ts outcome' m := by
  refine follows.mono ?_ fun fault wrong => wrong.imp_left (fails fault)
  rintro ⟨a, next⟩ ⟨within, rest, read, behind⟩
  obtain ⟨rest', goes', same⟩ := goes a rest read
  exact ⟨within, rest', goes', behind.trans same⟩

theorem further (here : ts.drop place = s) (rest : Shorter s) (behind : ts.drop next = rest.val) : place < next := by
  subst here
  have short := rest.property
  rw [← behind, List.length_drop, List.length_drop] at short
  omega

theorem Follows.consumes {outcome : Except SyntaxFault (α × Shorter s)} (follows : Follows ts outcome m)
    (here : ts.drop place = s) : Consumes ts place m := by
  refine follows.mono ?_ fun _ => And.right
  rintro ⟨a, next⟩ ⟨within, rest, -, behind⟩
  exact ⟨further here rest behind, within⟩

theorem tokenFound (here : ts.drop place = t :: rest) (stop : Nat) : (items stop ts)[place]? = some (.token t) ∧
    place < ts.length ∧ ts.drop (place + 1) = rest := by
  have inside : place < ts.length := by
    by_contra beyond
    rw [List.drop_eq_nil_of_le (Nat.le_of_not_lt beyond)] at here
    cases here
  rw [List.drop_eq_getElem_cons inside, List.cons.injEq] at here
  refine ⟨?_, inside, here.2⟩
  rw [items, List.getElem?_append_left (by simpa using inside), List.getElem?_map, List.getElem?_eq_getElem inside,
    here.1]
  rfl

theorem stopFound (here : ts.drop place = []) (inside : place ≤ ts.length) (stop : Nat) :
    (items stop ts)[place]? = some (.stop stop) := by
  have last : place = ts.length := Nat.le_antisymm inside (List.drop_eq_nil_iff.mp here)
  rw [items, List.getElem?_append_right (by simp [last]), List.length_map, last, Nat.sub_self]
  rfl

theorem placeFound (here : ts.drop place = s) (inside : place ≤ ts.length) (stop : Nat) :
    ∃ i, (items stop ts)[place]? = some i ∧ i.place = placeOf stop s := by
  cases s with
  | nil => exact ⟨_, stopFound here inside stop, rfl⟩
  | cons t rest => exact ⟨_, (tokenFound here stop).1, rfl⟩

theorem advanceFound (here : ts.drop place = t :: rest) (stop : Nat) :
    advance (items stop ts) place = pure (place + 1) := by
  rw [advance, currentFound (tokenFound here stop).1, pure_bind, if_neg (by simp [Item.lexeme?])]

theorem acceptOther (here : ts.drop place = t :: rest) (stop : Nat) (lexeme : Lexeme) (other : t.lexeme ≠ lexeme) :
    accept (items stop ts) lexeme place = pure (false, place) := by
  rw [accept, currentFound (tokenFound here stop).1, pure_bind, if_neg (by simpa [Item.lexeme?] using other)]

/- A lexeme is accepted where the reader of lists goes on behind it. -/
theorem acceptAfter (here : ts.drop place = s) (inside : place ≤ ts.length) (stop : Nat) (lexeme : Lexeme) :
    match after? lexeme s with
    | some rest => accept (items stop ts) lexeme place = pure (true, place + 1) ∧ place < ts.length ∧
        ts.drop (place + 1) = rest.val
    | none => accept (items stop ts) lexeme place = pure (false, place) := by
  cases s with
  | nil =>
    rw [accept, currentFound (stopFound here inside stop)]
    rfl
  | cons t rest =>
    rw [after?]
    by_cases same : t.lexeme = lexeme
    · obtain ⟨found, more, behind⟩ := tokenFound here stop
      rw [if_pos same, accept, currentFound found, pure_bind, if_pos (by simp [Item.lexeme?, same]),
        advanceFound here stop]
      exact ⟨rfl, more, behind⟩
    · rw [if_neg same]
      exact acceptOther here stop lexeme same

theorem rankLow (l : Level) : l.rank ≤ 3 := by
  cases l <;> decide

mutual

-- The order of the readers' own recursion, with what is left behind the cursor for the list. Eight functions can be
-- called at one place before a token is passed, and the list of arguments is called behind two.
theorem operandFollows {s : List Token} {fuel place : Nat} (stop : Nat) (l : Level) (here : ts.drop place = s)
    (inside : place ≤ ts.length) (enough : 8 * (ts.length - place) + 2 * l.rank < fuel) :
    Follows ts (Expr.operand stop l s) (operand fuel (items stop ts) l place) := by
  obtain _ | fuel := fuel
  · omega
  rw [operand.eq_def, Expr.operand.eq_def]
  cases l with
  | disjunction => exact binaryFollows stop .conjunction here inside (by simp only [Level.rank] at enough ⊢; omega)
  | conjunction => exact binaryFollows stop .comparison here inside (by simp only [Level.rank] at enough ⊢; omega)
  | comparison => exact unaryFollows stop here inside (by simp only [Level.rank] at enough ⊢; omega)
termination_by (ts.length - place, 2 * l.rank)

theorem binaryFollows {s : List Token} {fuel place : Nat} (stop : Nat) (l : Level) (here : ts.drop place = s)
    (inside : place ≤ ts.length) (enough : 8 * (ts.length - place) + 2 * l.rank + 1 < fuel) :
    Follows ts (Expr.binary stop l s) (binary fuel (items stop ts) l place) := by
  obtain _ | fuel := fuel
  · omega
  rw [binary, Expr.binary]
  refine (operandFollows stop l here inside (by omega)).bind (fun _ failed => by simp only [failed]) ?_
  rintro ⟨left, next⟩ ⟨within, ⟨middle, short⟩, first, behind⟩
  have later := further here ⟨middle, short⟩ behind
  refine (chainFollows stop l left behind within (by omega)).onward (fun _ failed => by simp only [first, failed]) ?_
  rintro e ⟨rest, short'⟩ others
  simp only [first, others]
  exact ⟨_, rfl, rfl⟩
termination_by (ts.length - place, 2 * l.rank + 1)

theorem chainFollows {s : List Token} {fuel place : Nat} (stop : Nat) (l : Level) (left : Expr)
    (here : ts.drop place = s) (inside : place ≤ ts.length) (enough : 8 * (ts.length - place) < fuel) :
    Follows ts (Expr.chain stop l left s) (chain fuel (items stop ts) l left place) := by
  obtain _ | fuel := fuel
  · omega
  rw [chain, Expr.chain.eq_def]
  cases s with
  | nil =>
    rw [currentFound (stopFound here inside stop), pure_bind]
    exact .returned ⟨inside, _, rfl, here⟩
  | cons t rest =>
    obtain ⟨found, more, behind⟩ := tokenFound here stop
    rw [currentFound found, pure_bind]
    simp only [Item.lexeme?, Option.bind_some]
    cases joins : l.join? t.lexeme with
    | none => exact .returned ⟨inside, _, rfl, here⟩
    | some join =>
      simp only [advanceFound here stop, pure_bind]
      have low := rankLow l
      refine (operandFollows stop l behind more (by omega)).bind (fun _ failed => by simp only [failed]) ?_
      rintro ⟨right, next⟩ ⟨within, ⟨middle, short⟩, second, behind'⟩
      have later := further behind ⟨middle, short⟩ behind'
      refine (chainFollows stop l (join left right) behind' within (by omega)).onward
        (fun _ failed => by simp only [second, failed]) ?_
      rintro e ⟨rest', short'⟩ others
      simp only [second, others]
      exact ⟨_, rfl, rfl⟩
termination_by (ts.length - place, 0)

theorem unaryFollows {s : List Token} {fuel place : Nat} (stop : Nat) (here : ts.drop place = s)
    (inside : place ≤ ts.length) (enough : 8 * (ts.length - place) + 1 < fuel) :
    Follows ts (Expr.unary stop s) (unary fuel (items stop ts) place) := by
  obtain _ | fuel := fuel
  · omega
  have accepts := acceptAfter here inside stop (.operator .not)
  rw [unary, Expr.unary.eq_def]
  split
  · obtain ⟨found, more, behind⟩ := accepts
    rw [found, pure_bind]
    refine (unaryFollows stop behind more (by omega)).bind (fun _ failed => by simp only [failed]) ?_
    rintro ⟨e, next⟩ ⟨within, ⟨rest, short⟩, goes, behind'⟩
    simp only [goes]
    exact .returned ⟨within, _, rfl, behind'⟩
  · rename_i other
    have refuses : after? (.operator .not) s = none := by
      cases s with
      | nil => rfl
      | cons t rest =>
        rw [after?, if_neg]
        intro same
        obtain ⟨lexeme, p⟩ := t
        cases same
        exact other p rest rfl
    rw [refuses] at accepts
    rw [accepts, pure_bind]
    exact primaryFollows stop here inside (by omega)
termination_by (ts.length - place, 1)

theorem primaryFollows {s : List Token} {fuel place : Nat} (stop : Nat) (here : ts.drop place = s)
    (inside : place ≤ ts.length) (enough : 8 * (ts.length - place) < fuel) :
    Follows ts (Expr.primary stop s) (primary fuel (items stop ts) place) := by
  obtain _ | fuel := fuel
  · omega
  have accepts := acceptAfter here inside stop .opening
  rw [primary, Expr.primary.eq_def]
  cases s with
  | nil =>
    replace accepts : accept (items stop ts) .opening place = pure (false, place) := accepts
    simp only [accepts, pure_bind, currentFound (stopFound here inside stop)]
    exact .refused ⟨rfl, .inl rfl⟩
  | cons t rest =>
    obtain ⟨lexeme, p⟩ := t
    obtain ⟨found, more, behind⟩ := tokenFound here stop
    cases lexeme with
    | opening =>
      rw [accepts.1, pure_bind]
      refine (binaryFollows stop .disjunction behind more (by simp only [Level.rank]; omega)).bind
        (fun _ failed => by simp only [failed]) ?_
      rintro ⟨e, next⟩ ⟨within, ⟨inner, short⟩, first, behind'⟩
      simp only at behind'
      have closes := acceptAfter behind' within stop .closing
      cases closed : after? .closing inner with
      | none =>
        simp only [closed] at closes
        obtain ⟨i, there, same⟩ := placeFound behind' within stop
        simp only [closes, pure_bind, currentFound there, first, closed, same]
        exact .refused ⟨rfl, .inl rfl⟩
      | some rest' =>
        simp only [closed] at closes
        simp only [closes.1, pure_bind, first, closed]
        exact .returned ⟨closes.2.1, _, rfl, closes.2.2⟩
    | text s =>
      simp only [acceptOther here stop .opening (by simp), pure_bind, currentFound found, advanceFound here stop]
      exact .returned ⟨more, _, rfl, behind⟩
    | number digits =>
      simp only [acceptOther here stop .opening (by simp), pure_bind, currentFound found, advanceFound here stop]
      have member : ⟨.number digits, p⟩ ∈ ts := List.mem_of_mem_drop (here ▸ List.mem_cons_self)
      cases value : numberValue digits with
      | ok v => exact .returned ⟨more, _, rfl, behind⟩
      | error fault => exact .refused ⟨rfl, .inr ⟨digits, fault, member, value, rfl⟩⟩
    | keyword k =>
      simp only [acceptOther here stop .opening (by simp), pure_bind, currentFound found, advanceFound here stop]
      exact .returned ⟨more, _, rfl, behind⟩
    | name name =>
      simp only [acceptOther here stop .opening (by simp), pure_bind, currentFound found, advanceFound here stop]
      have opens := acceptAfter behind more stop .opening
      cases called : after? .opening rest with
      | none =>
        simp only [called] at opens
        simp only [opens, pure_bind]
        exact .returned ⟨more, _, rfl, behind⟩
      | some inner =>
        obtain ⟨inner, short⟩ := inner
        simp only [called] at opens
        obtain ⟨opens, more', behind'⟩ := opens
        simp only [opens, pure_bind]
        cases valid : isCallName name with
        | false => exact .refused ⟨rfl, .inl rfl⟩
        | true =>
          have closes := acceptAfter behind' more' stop .closing
          cases closed : after? .closing inner with
          | some rest' =>
            simp only [closed] at closes
            simp only [closes.1, pure_bind, if_true]
            exact .returned ⟨closes.2.1, _, rfl, closes.2.2⟩
          | none =>
            simp only [closed] at closes
            simp only [closes, pure_bind, if_true]
            refine (argumentsFollow stop name behind' more' (by omega)).bind (fun _ failed => by simp only [failed]) ?_
            rintro ⟨args, next⟩ ⟨within, ⟨rest', short'⟩, goes, behind''⟩
            simp only [goes]
            exact .returned ⟨within, _, rfl, behind''⟩
    | operator | closing | comma =>
      simp only [acceptOther here stop .opening (by simp), pure_bind, currentFound found]
      exact .refused ⟨rfl, .inl rfl⟩
termination_by (ts.length - place, 0)

theorem argumentsFollow {s : List Token} {fuel place : Nat} (stop : Nat) (name : String) (here : ts.drop place = s)
    (inside : place ≤ ts.length) (enough : 8 * (ts.length - place) + 8 < fuel) :
    Follows ts (Expr.arguments stop name s) (arguments fuel (items stop ts) name place) := by
  obtain _ | fuel := fuel
  · omega
  rw [arguments, Expr.arguments]
  refine (binaryFollows stop .disjunction here inside (by simp only [Level.rank]; omega)).bind
    (fun _ failed => by simp only [failed]) ?_
  rintro ⟨e, next⟩ ⟨within, ⟨inner, short⟩, first, behind⟩
  simp only at behind
  have later := further here ⟨inner, short⟩ behind
  have closes := acceptAfter behind within stop .closing
  cases closed : after? .closing inner with
  | some rest =>
    simp only [closed] at closes
    simp only [closes.1, pure_bind, first, closed]
    exact .returned ⟨closes.2.1, _, rfl, closes.2.2⟩
  | none =>
    simp only [closed] at closes
    have separates := acceptAfter behind within stop .comma
    cases comma : after? .comma inner with
    | none =>
      simp only [comma] at separates
      obtain ⟨i, there, same⟩ := placeFound behind within stop
      simp only [closes, separates, pure_bind, currentFound there, first, closed, comma, same]
      exact .refused ⟨rfl, .inl rfl⟩
    | some rest =>
      obtain ⟨rest, short'⟩ := rest
      simp only [comma] at separates
      obtain ⟨separates, more, behind'⟩ := separates
      simp only [closes, separates, pure_bind, first, closed, comma]
      refine (argumentsFollow stop name behind' more (by omega)).bind (fun _ failed => by simp only [failed]) ?_
      rintro ⟨es, last⟩ ⟨within', ⟨rest', short''⟩, goes, behind''⟩
      simp only [goes]
      exact .returned ⟨within', _, rfl, behind''⟩
termination_by (ts.length - place, 10)

end

/- What a text without a lexeme is refused for is its syntax. -/
theorem scanSyntax {s : List Char} {fault : SyntaxFault} (failed : scanFrom place s = .error fault) :
    fault.value? = none := by
  fun_induction scanFrom place s generalizing fault with
  | case1 => cases failed
  | case2 place c s blank ih => exact ih failed
  | case3 => cases failed
  | case4 place c s solid l n found other failed' ih =>
    cases failed
    exact ih failed'
  | case5 place c s solid none =>
    cases failed
    split <;> rfl

theorem scanShort {s : List Char} {ts : List Token} (ok : scanFrom place s = .ok ts) : ts.length ≤ s.length := by
  fun_induction scanFrom place s generalizing ts with
  | case1 => exact (Except.ok.inj ok) ▸ Nat.le_refl 0
  | case2 place c s blank ih => exact Nat.le_succ_of_le (ih ok)
  | case3 place c s solid l n found ts' others ih =>
    cases ok
    have short := ih others
    rw [List.length_drop] at short
    simp only [List.length_cons]
    omega
  | case4 => cases ok
  | case5 => cases ok

/- The descent gives what the readers of lists give, whatever the text is; what it refuses is the syntax of the text or
a number in it. -/
theorem parseGives {fuel : Nat} (text : String) (enough : 8 * (text.length + 1) ≤ fuel) :
    parse fuel text = given (Expr.parse text) ∧
    ∀ fault, Expr.parse text = .error fault → fault.value? = none ∨
      ∃ ts digits v, scan text = .ok ts ∧ ⟨.number digits, fault.place⟩ ∈ ts ∧ numberValue digits = .error v ∧
        fault.value? = some v := by
  rw [parse, Expr.parse]
  cases scanned : scan text with
  | error fault => exact ⟨rfl, fun _ same => .inl (Except.error.inj same ▸ scanSyntax scanned)⟩
  | ok ts =>
    have few : ts.length ≤ text.length := (scanShort scanned).trans_eq String.length_toList
    cases ts with
    | nil => exact ⟨rfl, fun _ same => .inl (by cases same; rfl)⟩
    | cons t ts =>
      have several : (items text.length (t :: ts)).length ≠ 1 := by simp [items]
      simp only [Except.map, given, pure_bind, if_neg several, ofTokens]
      have follows : Follows (t :: ts) (Expr.binary text.length .disjunction (t :: ts)) _ :=
        binaryFollows text.length .disjunction List.drop_zero (Nat.zero_le _)
          (show 8 * ((t :: ts).length - 0) + 2 * Level.disjunction.rank + 1 < fuel by simp only [Level.rank]; omega)
      obtain ⟨⟨e, next⟩, same, within, ⟨left, short⟩, read, behind⟩ | ⟨fault, same, failed, blamed⟩ := follows
      · simp only [same, read]
        cases left with
        | nil =>
          rw [pure_bind, currentFound (stopFound behind within text.length), pure_bind]
          exact ⟨rfl, fun _ same => by cases same⟩
        | cons u rest =>
          rw [pure_bind, currentFound (tokenFound behind text.length).1, pure_bind]
          exact ⟨rfl, fun _ same => .inl (by cases same; rfl)⟩
      · simp only [same, failed]
        refine ⟨rfl, fun _ same => ?_⟩
        cases same
        refine blamed.imp_right ?_
        rintro ⟨digits, v, member, unread, told⟩
        exact ⟨_, digits, v, rfl, member, unread, told⟩

/- A number in a text: digits with at most one minus sign in front of them, and perhaps a point. -/
theorem lexemeNumber {c : Char} {s : List Char} {digits : String} {n : Nat}
    (found : lexeme? c s = some (.number digits, n)) :
    ∃ m, numberLength? (c :: s) = some m ∧ digits.toList = (c :: s).take m := by
  simp only [lexeme?] at found
  split at found
  · cases found
  · split at found
    · cases found
      exact ⟨_, ‹_›, String.toList_ofList⟩
    · (repeat' split at found) <;> cases found

theorem scannedNumber {s : List Char} {ts : List Token} (ok : scanFrom place s = .ok ts) {digits : String} {p : Nat}
    (member : ⟨.number digits, p⟩ ∈ ts) : ∃ t m, numberLength? t = some m ∧ digits.toList = t.take m := by
  fun_induction scanFrom place s generalizing ts with
  | case1 =>
    cases ok
    cases member
  | case2 place c s blank ih => exact ih ok member
  | case3 place c s solid l n found ts' others ih =>
    cases ok
    rcases List.mem_cons.mp member with same | later
    · cases same
      exact ⟨_, lexemeNumber found⟩
    · exact ih others later
  | case4 => cases ok
  | case5 => cases ok

/- A number that is not read has no point in it, and more digits than are read. -/
theorem numberUnread {text : String} {front : List Char} {v : ValueFault} (solid : front ≠ [])
    (spelled : text.toList = front ∨ text.toList = '-' :: front) (chars : ∀ c ∈ front, isDecimal c = true ∨ c = '.')
    (failed : numberValue text = .error v) :
    '.' ∉ text.toList ∧ ValueFault.maxDigits < (text.toList.dropWhile (· == '-')).length ∧ v.family = .value := by
  rw [numberValue] at failed
  split at failed
  · cases failed
  rename_i pointless
  have noPoint : '.' ∉ text.toList := by simpa using pointless
  have decimal : ∀ c ∈ front, isDecimal c = true := fun c member => (chars c member).resolve_right <| by
    rintro rfl
    rcases spelled with whole | whole <;> simp [whole, member] at noPoint
  have behind : text.toList.dropWhile (· == '-') = front := by
    obtain ⟨c, rest, rfl⟩ := List.exists_cons_of_ne_nil solid
    have unsigned : (c == '-') = false := by
      rw [beq_eq_false_iff_ne]
      rintro rfl
      exact absurd (decimal '-' List.mem_cons_self) (by decide)
    rcases spelled with whole | whole <;> simp [whole, unsigned]
  have marked : Path.looksLikeIndex text = true := by
    simp only [Path.looksLikeIndex, behind, Bool.and_eq_true, Bool.not_eq_true', List.isEmpty_eq_false_iff,
      List.all_eq_true]
    exact ⟨solid, fun c member => by rw [isDigit, decimal c member, Bool.true_or]⟩
  cases read : Path.readInteger text with
  | ok n => simp [read, Except.map] at failed
  | error fault =>
    rw [read] at failed
    cases failed
    refine ⟨noPoint, ?_, Path.readFamily read⟩
    rw [behind]
    by_contra few
    obtain ⟨n, whole⟩ := (Path.indexRead marked).mpr ⟨by
      rw [behind]
      rcases spelled with whole | whole <;> simp [whole], by rwa [behind], by rw [behind]; omega⟩
    rw [whole] at read
    cases read

/- What it is to come to an end for a text: with an expression, or an error in its syntax, or else the fault of an
integer in it that has more digits than are read. The cursor does not pass the end, and each operand takes a token.
Eight calls for each character are never exhausted. -/
structure Total (text : String) : Prop where
  gives : ∀ fuel, 8 * (text.length + 1) ≤ fuel → parse fuel text = given (Expr.parse text)
  ends : ∀ fuel, 8 * (text.length + 1) ≤ fuel → (∃ e, parse fuel text = pure e) ∨
    ∃ fault, parse fuel text = refuse fault ∧ (fault.value? = none ∨
      ∃ ts digits v, scan text = .ok ts ∧ ⟨.number digits, fault.place⟩ ∈ ts ∧ '.' ∉ digits.toList ∧
        ValueFault.maxDigits < (digits.toList.dropWhile (· == '-')).length ∧ fault.value? = some v ∧ v.family = .value)
  takes : ∀ ts, scan text = .ok ts → ∀ fuel, ∀ place ≤ ts.length, 8 * (ts.length - place) + 8 < fuel →
    Consumes ts place (primary fuel (items text.length ts) place) ∧
      Consumes ts place (unary fuel (items text.length ts) place) ∧
      (∀ l, Consumes ts place (operand fuel (items text.length ts) l place) ∧
        Consumes ts place (binary fuel (items text.length ts) l place)) ∧
      ∀ name, Consumes ts place (arguments fuel (items text.length ts) name place)

theorem total (text : String) : Total text := by
  refine ⟨fun fuel enough => (parseGives text enough).1, fun fuel enough => ?_, ?_⟩
  · obtain ⟨gives, blames⟩ := parseGives text enough
    rw [gives]
    cases parsed : Expr.parse text with
    | ok e => exact .inl ⟨e, rfl⟩
    | error fault =>
      refine .inr ⟨fault, rfl, (blames fault parsed).imp_right ?_⟩
      rintro ⟨ts, digits, v, scanned, member, unread, told⟩
      obtain ⟨s, n, number, spelled⟩ := scannedNumber scanned member
      obtain ⟨front, solid, shape, chars⟩ := Plain.numberShape number
      rw [← spelled] at shape
      obtain ⟨noPoint, long, family⟩ := numberUnread solid shape chars unread
      exact ⟨ts, digits, v, scanned, member, noPoint, long, told, family⟩
  · intro ts _ fuel place inside enough
    refine ⟨(primaryFollows _ rfl inside (by omega)).consumes rfl, (unaryFollows _ rfl inside (by omega)).consumes rfl,
      fun l => ?_, fun name => ?_⟩
    · have low := rankLow l
      exact ⟨(operandFollows _ l rfl inside (by omega)).consumes rfl,
        (binaryFollows _ l rfl inside (by omega)).consumes rfl⟩
    · exact (argumentsFollow _ name rfl inside enough).consumes rfl

/- The least integer that has too many digits is in order as far as the syntax goes. -/
theorem longNumberRaises : ∃ fault v, (∀ fuel, 8 * ((toString (Value.leastUnwritable : Int)).length + 1) ≤ fuel →
    parse fuel (toString (Value.leastUnwritable : Int)) = refuse fault) ∧
    fault.value? = some v ∧ v.family = .value := by
  generalize text : toString (Value.leastUnwritable : Int) = s
  have unread := integerReads Value.leastUnwritable
  rw [text, Int.natAbs_natCast, if_neg (Nat.lt_irrefl _)] at unread
  generalize (Nat.toDigits 10 Value.leastUnwritable).length = count at unread
  obtain ⟨ts, scanned, lexed⟩ := lexesScanned (spellsLexes (text ▸ integerSpells _) (by simp [Apart]) .nil) 0
  obtain ⟨⟨lexeme, p⟩, rfl, rfl⟩ := List.map_eq_singleton_iff.mp lexed
  rw [List.append_nil, ← scan] at scanned
  refine ⟨⟨.unreadableNumber (.tooManyDigits count), p⟩, .tooManyDigits count, fun fuel enough => ?_, rfl, rfl⟩
  rw [(parseGives s enough).1, Expr.parse, scanned]
  simp [ofTokens, Expr.binary, Expr.operand, Expr.unary, Expr.primary, unread, given]

end Stencil.Expr.Descent

namespace Stencil

/- Both descents come to an end, on whatever they are given. -/
theorem descentsEnd (limits : Limits) {ts : List Token} (closed : Node.Descent.Closed ts) (text : String) :
    Node.Descent.Total limits ts ∧ Expr.Descent.Total text :=
  ⟨Node.Descent.total limits closed, Expr.Descent.total text⟩

theorem descentsEndBlocks : Node.Descent.Closed (Node.sampleBlocks ++ [Node.sampleStop]) ∧
    Node.Descent.parse 50 .standard (Node.sampleBlocks ++ [Node.sampleStop]) =
      pure (.root .start [.loop ⟨1, 1, 0⟩ "x" "xs" [.conditional ⟨1, 20, 0⟩ "x" [.text ⟨1, 30, 0⟩ "a"] []]]) ∧
    Expr.Descent.parse 88 "!f(a) == 1" =
      pure (.compare .equal (.not (.call "f" [.path "a"])) (.literal (.int 1))) := by
  have closed : Node.Descent.Closed (Node.sampleBlocks ++ [Node.sampleStop]) := rfl
  have read : Node.ofTokens .standard (Node.sampleBlocks ++ [Node.sampleStop]) =
      .ok (.root .start [.loop ⟨1, 1, 0⟩ "x" "xs" [.conditional ⟨1, 20, 0⟩ "x" [.text ⟨1, 30, 0⟩ "a"] []]]) := by cbv
  have parsed : Expr.parse "!f(a) == 1" = .ok (.compare .equal (.not (.call "f" [.path "a"])) (.literal (.int 1))) := by
    cbv
  obtain ⟨blocks, text⟩ := descentsEnd .standard closed "!f(a) == 1"
  refine ⟨closed, ?_, ?_⟩
  · rw [blocks.gives 50 (by decide), read]
    rfl
  · rw [text.gives 88 (by decide), parsed]
    rfl

end Stencil
