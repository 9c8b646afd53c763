import HypermediaApi.Proofs.Json.Texts

/-!
# HypermediaApi.Proofs.Json.Tokens — from tokens to documents, and from characters to tokens

A document has one list of tokens without anything superfluous (`Tree.tokens`), and the parser makes of them that document
(`treeFrom?_tokens`). What carries the induction is that the parser goes on, inside whatever is open, as if the value had
been there at once (`treeFrom?_value`); arrays and objects get it for the values after the first one, each after a comma.

The lexer knows that a word is complete only from the character after it. Characters that are read as some tokens
whatever follows are therefore closed under appending as long as the part behind does not continue a word (`Lexes.append`).
-/

namespace HypermediaApi.Json

/-! ### The tokens of a document -/

mutual

/-- The tokens that write a document. -/
def Tree.tokens : Tree → List Token
  | .null => [.null]
  | .bool b => [.bool b]
  | .number n => [.number n]
  | .text body => [.text body]
  | .array [] => [.openArray, .closeArray]
  | .array (t :: r) => .openArray :: (t.tokens ++ (itemsTokens r ++ [.closeArray]))
  | .object [] => [.openObject, .closeObject]
  | .object ((k, t) :: r) => .openObject :: .text k :: .colon :: (t.tokens ++ (membersTokens r ++ [.closeObject]))

/-- The tokens of the items after the first one, each after a comma. -/
def itemsTokens : List Tree → List Token
  | [] => []
  | t :: r => .comma :: (t.tokens ++ itemsTokens r)

/-- The tokens of the members after the first one, each after a comma. -/
def membersTokens : List (List Char × Tree) → List Token
  | [] => []
  | (k, t) :: r => .comma :: .text k :: .colon :: (t.tokens ++ membersTokens r)

end

/-- No document starts with the end of an array. -/
theorem Tree.exists_tokens_eq_cons (t : Tree) : ∃ x r, t.tokens = x :: r ∧ x ≠ .closeArray := by
  cases t with
  | null => exact ⟨_, _, rfl, by simp⟩
  | bool b => exact ⟨_, _, rfl, by simp⟩
  | number n => exact ⟨_, _, rfl, by simp⟩
  | text body => exact ⟨_, _, rfl, by simp⟩
  | array items =>
    cases items with
    | nil => exact ⟨_, _, rfl, by simp⟩
    | cons t r => exact ⟨_, _, rfl, by simp⟩
  | object members =>
    cases members with
    | nil => exact ⟨_, _, rfl, by simp⟩
    | cons m r => exact ⟨_, _, rfl, by simp⟩

/-! ### Parsing them -/

theorem treeFrom?_cons {state state' : ParseState} {x : Token} (h : state.step x = some state') (r : List Token) :
    treeFrom? state (x :: r) = treeFrom? state' r := by
  rw [treeFrom?, h]

/-- Before the first item of an array the parser goes on as before any other. -/
theorem treeFrom?_firstItem (t : Tree) (stack : List Frame) (r : List Token) :
    treeFrom? (.firstItem stack) (t.tokens ++ r) = treeFrom? (.value (.items [] :: stack)) (t.tokens ++ r) := by
  obtain ⟨x, rest, htokens, hclose⟩ := t.exists_tokens_eq_cons
  have hstep : ParseState.step (.firstItem stack) x = ParseState.step (.value (.items [] :: stack)) x := by
    cases x with
    | closeArray => exact absurd rfl hclose
    | _ => rfl
  rw [htokens, List.cons_append, treeFrom?, treeFrom?, hstep]

mutual

/-- **The tokens of a value complete it**, whatever is open around it and whatever follows. -/
theorem treeFrom?_value (t : Tree) (stack : List Frame) (r : List Token) :
    treeFrom? (.value stack) (t.tokens ++ r) = treeFrom? (.after t stack) r := by
  cases t with
  | null => rfl
  | bool b => rfl
  | number n => rfl
  | text body => rfl
  | array items =>
    cases items with
    | nil => rfl
    | cons t rest =>
      have hopen : ParseState.step (.value stack) .openArray = some (.firstItem stack) := rfl
      rw [Tree.tokens, List.cons_append, List.append_assoc, List.append_assoc, treeFrom?_cons hopen, treeFrom?_firstItem,
        treeFrom?_value t, List.singleton_append, treeFrom?_items]
      rfl
  | object members =>
    cases members with
    | nil => rfl
    | cons m rest =>
      obtain ⟨k, t⟩ := m
      have hopen : ParseState.step (.value stack) .openObject = some (.firstKey stack) := rfl
      have hkey : ParseState.step (.firstKey stack) (.text k) = some (.colon [] k stack) := rfl
      have hcolon : ParseState.step (.colon [] k stack) .colon = some (.value (.members [] k :: stack)) := rfl
      rw [Tree.tokens, List.cons_append, List.cons_append, List.cons_append, List.append_assoc, List.append_assoc,
        treeFrom?_cons hopen, treeFrom?_cons hkey, treeFrom?_cons hcolon, treeFrom?_value t, List.singleton_append,
        treeFrom?_members]
      rfl

/-- The tokens of the items after one complete the array. -/
theorem treeFrom?_items (ts : List Tree) (t : Tree) (done : List Tree) (stack : List Frame) (r : List Token) :
    treeFrom? (.after t (.items done :: stack)) (itemsTokens ts ++ .closeArray :: r) =
      treeFrom? (.after (.array (done.reverse ++ t :: ts)) stack) r := by
  cases ts with
  | nil =>
    have hclose : ParseState.step (.after t (.items done :: stack)) .closeArray =
        some (.after (.array (t :: done).reverse) stack) := rfl
    rw [itemsTokens, List.nil_append, treeFrom?_cons hclose, List.reverse_cons]
  | cons u us =>
    have hcomma : ParseState.step (.after t (.items done :: stack)) .comma =
        some (.value (.items (t :: done) :: stack)) := rfl
    rw [itemsTokens, List.cons_append, List.append_assoc, treeFrom?_cons hcomma, treeFrom?_value u, treeFrom?_items us,
      List.reverse_cons, List.append_assoc, List.singleton_append]

/-- The tokens of the members after one complete the object. -/
theorem treeFrom?_members (ms : List (List Char × Tree)) (k : List Char) (t : Tree) (done : List (List Char × Tree))
    (stack : List Frame) (r : List Token) :
    treeFrom? (.after t (.members done k :: stack)) (membersTokens ms ++ .closeObject :: r) =
      treeFrom? (.after (.object (done.reverse ++ (k, t) :: ms)) stack) r := by
  cases ms with
  | nil =>
    have hclose : ParseState.step (.after t (.members done k :: stack)) .closeObject =
        some (.after (.object ((k, t) :: done).reverse) stack) := rfl
    rw [membersTokens, List.nil_append, treeFrom?_cons hclose, List.reverse_cons]
  | cons m ms =>
    obtain ⟨l, u⟩ := m
    have hcomma : ParseState.step (.after t (.members done k :: stack)) .comma =
        some (.key ((k, t) :: done) stack) := rfl
    have hkey : ParseState.step (.key ((k, t) :: done) stack) (.text l) = some (.colon ((k, t) :: done) l stack) := rfl
    have hcolon : ParseState.step (.colon ((k, t) :: done) l stack) .colon =
        some (.value (.members ((k, t) :: done) l :: stack)) := rfl
    rw [membersTokens, List.cons_append, List.cons_append, List.cons_append, List.append_assoc, treeFrom?_cons hcomma,
      treeFrom?_cons hkey, treeFrom?_cons hcolon, treeFrom?_value u, treeFrom?_members ms, List.reverse_cons,
      List.append_assoc, List.singleton_append]

end

/-- **The tokens of a document are parsed to it.** -/
theorem treeFrom?_tokens (t : Tree) : treeFrom? (.value []) t.tokens = some t := by
  rw [← List.append_nil t.tokens, treeFrom?_value]
  rfl

/-- A text that is read as the tokens of a document writes that document. -/
theorem Tree.read?_of_tokens {s : String} {t : Tree} (h : tokens? s.toList = some t.tokens) : read? s = some t := by
  rw [read?, h, Option.bind_some, treeFrom?_tokens]

/-! ### Characters that are read as tokens -/

/-- A text that cannot continue a word. -/
def EndsWord (cs : List Char) : Prop := ∀ c ∈ cs.head?, isWordChar c = false

theorem EndsWord.append {cs ds : List Char} (h : EndsWord cs) (h' : EndsWord ds) : EndsWord (cs ++ ds) := by
  cases cs with
  | nil => exact h'
  | cons c r => exact h

/-- The characters are read as the tokens, whatever follows that does not continue a word. -/
def Lexes (cs : List Char) (ts : List Token) : Prop :=
  ∀ (done : List Token) (r : List Char), EndsWord r →
    tokensFrom? .between done (cs ++ r) = tokensFrom? .between (ts.reverse ++ done) r

namespace Lexes

variable {cs ds : List Char} {ts us : List Token}

theorem nil : Lexes [] [] := fun _ _ _ => rfl

theorem append (h : Lexes cs ts) (hends : EndsWord ds) (h' : Lexes ds us) : Lexes (cs ++ ds) (ts ++ us) := by
  intro done r hr
  rw [List.append_assoc, h done _ (hends.append hr), h' _ r hr, List.reverse_append, List.append_assoc]

/-- A bracket, a comma or a colon is a token by itself. -/
theorem punctuation {c : Char} {t : Token} (hc : punctuation? c = some t) (h : Lexes cs ts) : Lexes (c :: cs) (t :: ts) := by
  intro done r hr
  have hstep : LexState.between.step c done = some (.between, t :: done) := by
    unfold punctuation? at hc
    split at hc <;> cases hc <;> rfl
  rw [List.cons_append, tokensFrom?_cons hstep, h _ r hr, List.reverse_cons, List.append_assoc, List.singleton_append]

/-- Inside a word the lexer collects its characters. -/
theorem tokensFrom?_word (hcs : ∀ x ∈ cs, isWordChar x = true) (read : List Char) (done : List Token) (r : List Char) :
    tokensFrom? (.word read) done (cs ++ r) = tokensFrom? (.word (cs.reverse ++ read)) done r := by
  induction cs generalizing read with
  | nil => rfl
  | cons c cs ih =>
    obtain ⟨hc, hrest⟩ := List.forall_mem_cons.mp hcs
    have hstep : (LexState.word read).step c done = some (.word (c :: read), done) := if_pos hc
    rw [List.cons_append, tokensFrom?_cons hstep, ih hrest, List.reverse_cons, List.append_assoc, List.singleton_append]

/-- A word that is complete is its token. -/
theorem tokensFrom?_word_end {w : List Char} {t : Token} (ht : wordToken? w = some t) (done : List Token) {r : List Char}
    (hr : EndsWord r) : tokensFrom? (.word w.reverse) done r = tokensFrom? .between (t :: done) r := by
  cases r with
  | nil => simp [tokensFrom?, ht]
  | cons c r =>
    have hc : isWordChar c = false := hr c rfl
    have hstep : (LexState.word w.reverse).step c done = LexState.between.step c (t :: done) := by
      simp [LexState.step, hc, ht]
    rw [tokensFrom?, tokensFrom?, hstep]

/-- **A word is read as its token** at the first character that is none of its own. -/
theorem word {c : Char} (hcs : (c :: cs).all isWordChar = true) {t : Token} (ht : wordToken? (c :: cs) = some t) :
    Lexes (c :: cs) [t] := by
  intro done r hr
  obtain ⟨hc, hrest⟩ := List.forall_mem_cons.mp (List.all_eq_true.mp hcs)
  have hspace : isSpace c = false := by
    rw [Bool.eq_false_iff]
    intro hspace
    simp only [isSpace, Bool.or_eq_true, decide_eq_true_eq] at hspace
    rcases hspace with ((rfl | rfl) | rfl) | rfl <;> exact absurd hc (by decide)
  have hquote : c ≠ '"' := by
    rintro rfl
    exact absurd hc (by decide)
  have hstep : LexState.between.step c done = some (.word [c], done) := by
    simp [LexState.step, startToken, hspace, hquote, hc]
  have hword : cs.reverse ++ [c] = (c :: cs).reverse := List.reverse_cons.symm
  rw [List.cons_append, tokensFrom?_cons hstep, tokensFrom?_word hrest, hword, tokensFrom?_word_end ht done hr]
  rfl

end Lexes

end HypermediaApi.Json
