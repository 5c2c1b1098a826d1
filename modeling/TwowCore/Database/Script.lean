import TwowCore.Database.AutoUpdater

/-!
# The statements of a script

A script is made of characters, strings and comments, and its statements are what the server should get. The loop
of `ExecuteUpdate` reads the script character by character, with a look at the neighbours of each. It finds the
statements of every script that it can read: no `/*` in a line comment, no `/` at the beginning of a block comment,
no escaped backslash before a quote that is not escaped, no carriage return that does not end a line.
-/

namespace TwowCore.Database

/-- The quotes of strings. -/
inductive Quote where
  | single
  | double
  deriving DecidableEq, Repr

/-- Its character. -/
def Quote.char : Quote → Char
  | .single => singleQuote
  | .double => doubleQuote

/-- Its string status. -/
def Quote.status : Quote → StringStatus
  | .single => .singleQuotes
  | .double => .doubleQuotes

/-- What a string is made of. -/
inductive StringItem where
  | char (c : Char)
  | escaped (c : Char)
  | doubled
  deriving DecidableEq, Repr

/-- What a script is made of. -/
inductive Piece where
  | plain (c : Char)
  | string (quote : Quote) (items : List StringItem)
  | lineComment (text : List Char)
  | blockComment (text : List Char)
  deriving DecidableEq, Repr

/-- How an item of a string is written. -/
def StringItem.render (quote : Quote) : StringItem → List Char
  | .char c => [c]
  | .escaped c => [backslash, c]
  | .doubled => [quote.char, quote.char]

/-- How a piece is written. -/
def Piece.render : Piece → List Char
  | .plain c => [c]
  | .string quote items => quote.char :: (items.flatMap (StringItem.render quote) ++ [quote.char])
  | .lineComment text => '-' :: '-' :: text
  | .blockComment text => '/' :: '*' :: (text ++ ['*', '/'])

/-- How a script is written. -/
def renderScript (script : List Piece) : List Char := script.flatMap Piece.render

/-- A character of a string that stands for itself. -/
def StringItem.Fits (quote : Quote) : StringItem → Prop
  | .char c => c ≠ quote.char ∧ c ≠ backslash
  | .escaped _ | .doubled => True

/-- The pieces are those that one comes to in reading the script. -/
def WellFormed : List Piece → Prop
  | [] => True
  | .plain c :: rest =>
      (c ≠ singleQuote ∧ c ≠ doubleQuote ∧ (c = '-' → (renderScript rest).head? ≠ some '-') ∧
        (c = '/' → (renderScript rest).head? ≠ some '*')) ∧ WellFormed rest
  | .string quote items :: rest =>
      -- one more quote would be a doubled one
      ((∀ item ∈ items, item.Fits quote) ∧
        (renderScript rest).head? ≠ some quote.char) ∧ WellFormed rest
  | .lineComment text :: rest =>
      ('\n' ∉ text ∧ (rest = [] ∨ (renderScript rest).head? = some '\n')) ∧ WellFormed rest
  | .blockComment text :: rest => ¬['*', '/'] <:+: text ∧ WellFormed rest

/-- What a character outside of strings and comments is in a statement: a line break is a blank. -/
def plainText (c : Char) (next : Option Char) : List Char :=
  if c = '\r' ∧ next = some '\n' then []
  else if c = '\r' ∨ c = '\n' then [' ']
  else [c]

/-- The line breaks of a comment. -/
def lineBreaks (text : List Char) : List Char := (text.filter (· = '\n')).map fun _ => ' '

/-- The statements of a script, after the beginning of one. Only blanks are no statement. -/
def statementsFrom (query : List Char) : List Piece → List (List Char)
  | [] => if query.any fun c => c ∉ ['\t', '\r', '\n', ' '] then [query] else []
  | .plain c :: rest =>
      if c = ';' then (query ++ [c]) :: statementsFrom [] rest
      else statementsFrom (query ++ plainText c (renderScript rest).head?) rest
  | .string quote items :: rest => statementsFrom (query ++ (Piece.string quote items).render) rest
  | .lineComment _ :: rest => statementsFrom query rest
  | .blockComment text :: rest => statementsFrom (query ++ lineBreaks text) rest

/-- The statements of a script. -/
def statements (script : List Piece) : List (List Char) := statementsFrom [] script

/-- No quote that is not escaped is behind a backslash, from a character on. -/
def QuotesClear (quote : Quote) : Char → List StringItem → Prop
  | prev, [] => prev ≠ backslash
  | _, .char c :: rest => QuotesClear quote c rest
  | _, .escaped c :: rest => QuotesClear quote c rest
  | prev, .doubled :: rest => prev ≠ backslash ∧ QuotesClear quote quote.char rest

/-- The loop can read the pieces. -/
def Readable : List Piece → Prop
  | [] => True
  | .plain c :: rest => (c = '\r' → (renderScript rest).head? = some '\n') ∧ Readable rest
  | .string quote items :: rest => QuotesClear quote quote.char items ∧ Readable rest
  | .lineComment text :: rest =>
      (¬['/', '*'] <:+: text ∧ ∀ c ∈ text.dropWhile (· ≠ '\r'), c = '\r') ∧ Readable rest
  | .blockComment text :: rest => text.head? ≠ some '/' ∧ Readable rest

/-- The null character. -/
def nullChar : Char := Char.ofNat 0

/-- The strings are of one line, and nothing that is sent has a null character. -/
def Piece.Sendable : Piece → Prop
  | .plain c => c ≠ nullChar
  | .string quote items => ∀ c ∈ (Piece.string quote items).render, c ∉ ['\r', '\n', nullChar]
  | .lineComment _ | .blockComment _ => True

section Decide

instance (quote : Quote) : DecidablePred (StringItem.Fits quote)
  | .char _ => inferInstanceAs (Decidable (_ ∧ _))
  | .escaped _ | .doubled => isTrue trivial

instance decidableWellFormed : DecidablePred WellFormed
  | [] => isTrue trivial
  | .plain c :: rest =>
      have := decidableWellFormed rest
      inferInstanceAs (Decidable ((c ≠ singleQuote ∧ c ≠ doubleQuote ∧
        (c = '-' → (renderScript rest).head? ≠ some '-') ∧
          (c = '/' → (renderScript rest).head? ≠ some '*')) ∧ WellFormed rest))
  | .string quote items :: rest =>
      have := decidableWellFormed rest
      inferInstanceAs (Decidable (((∀ item ∈ items, item.Fits quote) ∧
        (renderScript rest).head? ≠ some quote.char) ∧ WellFormed rest))
  | .lineComment text :: rest =>
      have := decidableWellFormed rest
      inferInstanceAs (Decidable (('\n' ∉ text ∧
        (rest = [] ∨ (renderScript rest).head? = some '\n')) ∧ WellFormed rest))
  | .blockComment text :: rest =>
      have := decidableWellFormed rest
      inferInstanceAs (Decidable (¬['*', '/'] <:+: text ∧ WellFormed rest))

instance decidableQuotesClear (quote : Quote) :
    (prev : Char) → (items : List StringItem) → Decidable (QuotesClear quote prev items)
  | prev, [] => inferInstanceAs (Decidable (prev ≠ backslash))
  | _, .char c :: rest => decidableQuotesClear quote c rest
  | _, .escaped c :: rest => decidableQuotesClear quote c rest
  | prev, .doubled :: rest =>
      have := decidableQuotesClear quote quote.char rest
      inferInstanceAs (Decidable (prev ≠ backslash ∧ QuotesClear quote quote.char rest))

instance decidableReadable : DecidablePred Readable
  | [] => isTrue trivial
  | .plain c :: rest =>
      have := decidableReadable rest
      inferInstanceAs (Decidable ((c = '\r' → (renderScript rest).head? = some '\n') ∧ Readable rest))
  | .string quote items :: rest =>
      have := decidableReadable rest
      inferInstanceAs (Decidable (QuotesClear quote quote.char items ∧ Readable rest))
  | .lineComment text :: rest =>
      have := decidableReadable rest
      -- not over all characters
      have := List.decidableBAll (· = '\r') (text.dropWhile (· ≠ '\r'))
      inferInstanceAs (Decidable ((¬['/', '*'] <:+: text ∧
        ∀ c ∈ text.dropWhile (· ≠ '\r'), c = '\r') ∧ Readable rest))
  | .blockComment text :: rest =>
      have := decidableReadable rest
      inferInstanceAs (Decidable (text.head? ≠ some '/' ∧ Readable rest))

instance : DecidablePred Piece.Sendable
  | .plain _ => inferInstanceAs (Decidable (_ ≠ _))
  | .string quote items =>
      List.decidableBAll (· ∉ ['\r', '\n', nullChar]) (Piece.string quote items).render
  | .lineComment _ | .blockComment _ => isTrue trivial

end Decide

section Read

variable {prev : Option Char} {query : List Char} {queries : List (List Char)} {next : Option Char}
  {quote : Quote} {c : Char}

theorem status_ne_none (quote : Quote) : quote.status ≠ .none := by
  cases quote with
  | single => decide
  | double => decide

theorem quoteScope_stays {own scope : StringStatus} (hopen : scope ≠ .none)
    (h : scope ≠ own ∨ prev = some backslash) : quoteScope own prev scope = scope := by
  unfold quoteScope
  rw [if_neg hopen, if_neg]
  rintro ⟨hown, hprev⟩
  exact h.elim (fun hother => hother hown) fun hbackslash => hprev hbackslash

/-- A string goes on, unless a quote ends it. -/
theorem scopeAfter_inString (hstays : c ≠ quote.char ∨ prev = some backslash) :
    scopeAfter prev c quote.status = quote.status := by
  unfold scopeAfter
  split_ifs with hsingle hdouble
  · refine quoteScope_stays (status_ne_none quote) ?_
    cases quote with
    | single => exact .inr (hstays.resolve_left (not_not.mpr hsingle))
    | double => exact .inl (by decide)
  · refine quoteScope_stays (status_ne_none quote) ?_
    cases quote with
    | single => exact .inl (by decide)
    | double => exact .inr (hstays.resolve_left (not_not.mpr hdouble))
  · rfl

/-- In a string a character is taken as it is, unless it is a quote that ends the string. -/
theorem next_inString (h : c ∉ ['\r', '\n']) (hstays : c ≠ quote.char ∨ prev = some backslash) :
    Splitter.next ⟨quote.status, .none, query, queries⟩ prev c next =
      ⟨quote.status, .none, query ++ [c], queries⟩ := by
  have hbreak : ¬(c = '\r' ∨ c = '\n') := by simpa using h
  have hopen := status_ne_none quote
  unfold Splitter.next
  dsimp only
  rw [if_neg hbreak, if_neg (by simp), if_neg (by simp [hopen]), if_neg (by simp),
    if_neg (by simp [hopen]), scopeAfter_inString hstays, if_neg (by simp [hopen])]

/-- The quote that ends a string. -/
theorem next_close (hprev : prev ≠ some backslash) :
    Splitter.next ⟨quote.status, .none, query, queries⟩ prev quote.char next =
      ⟨.none, .none, query ++ [quote.char], queries⟩ := by
  cases quote with
  | single => simp [Splitter.next, Quote.char, Quote.status, scopeAfter, quoteScope, singleQuote, hprev]
  | double => simp [Splitter.next, Quote.char, Quote.status, scopeAfter, quoteScope, singleQuote, doubleQuote, hprev]

/-- The quote that begins a string. -/
theorem next_open :
    Splitter.next ⟨.none, .none, query, queries⟩ prev quote.char next =
      ⟨quote.status, .none, query ++ [quote.char], queries⟩ := by
  cases quote with
  | single => simp [Splitter.next, Quote.char, Quote.status, scopeAfter, quoteScope, singleQuote]
  | double => simp [Splitter.next, Quote.char, Quote.status, scopeAfter, quoteScope, singleQuote, doubleQuote]

/-- A character outside of strings and comments. -/
theorem next_plain (hquotes : c ≠ singleQuote ∧ c ≠ doubleQuote) (hline : c = '-' → next ≠ some '-')
    (hblock : c = '/' → next ≠ some '*') (hreturn : c = '\r' → next = some '\n') (hcut : c ≠ ';') :
    Splitter.next ⟨.none, .none, query, queries⟩ prev c next =
      ⟨.none, .none, query ++ plainText c next, queries⟩ := by
  unfold Splitter.next plainText
  by_cases hfeed : c = '\n'
  · subst hfeed
    simp
  · by_cases hcarriage : c = '\r'
    · subst hcarriage
      simp [hreturn rfl]
    · have hscope : scopeAfter prev c .none = .none := by
        unfold scopeAfter
        rw [if_neg hquotes.1, if_neg hquotes.2]
      dsimp only
      rw [if_neg (by simp [hfeed, hcarriage]), if_neg (by simp), if_neg fun h => hblock h.1 h.2.2,
        if_neg (by simp), if_neg fun h => hline h.1 h.2.2, hscope, if_neg fun h => hcut h.1,
        if_neg fun h => hcarriage h.1, if_neg (by simp [hfeed, hcarriage])]

/-- A statement ends. -/
theorem next_cut : Splitter.next ⟨.none, .none, query, queries⟩ prev ';' next =
    ⟨.none, .none, [], queries ++ [query ++ [';']]⟩ := by
  simp [Splitter.next, scopeAfter, singleQuote, doubleQuote]

/-- In a block comment nothing but line breaks is taken. -/
theorem next_inBlock (hends : c = '/' → prev ≠ some '*') :
    Splitter.next ⟨.none, .multiline, query, queries⟩ prev c next =
      ⟨.none, .multiline, query ++ lineBreaks [c], queries⟩ := by
  unfold Splitter.next lineBreaks
  by_cases hfeed : c = '\n'
  · subst hfeed
    simp
  · by_cases hcarriage : c = '\r'
    · subst hcarriage
      simp
    · dsimp only
      rw [if_neg (by simp [hfeed, hcarriage]), if_neg fun h => hends h.1 h.2.2]
      simp [hfeed]

/-- In a line comment nothing is taken. -/
theorem next_inLine (hbreak : c ∉ ['\r', '\n']) (hblock : c = '/' → next ≠ some '*') :
    Splitter.next ⟨.none, .singleline, query, queries⟩ prev c next =
      ⟨.none, .singleline, query, queries⟩ := by
  have hbreak' : ¬(c = '\r' ∨ c = '\n') := by simpa using hbreak
  unfold Splitter.next
  dsimp only
  rw [if_neg hbreak', if_neg (by simp), if_neg fun h => hblock h.1 h.2.2, if_pos (by simp)]

/-- A line feed ends a line comment. -/
theorem next_feed {scope : CommentScope} (hscope : scope ≠ .multiline) :
    Splitter.next ⟨.none, scope, query, queries⟩ prev '\n' next =
      ⟨.none, .none, query ++ [' '], queries⟩ := by
  cases scope with
  | none => rfl
  | singleline => rfl
  | multiline => exact absurd rfl hscope

end Read

section Run

variable {query : List Char} {queries : List (List Char)} {quote : Quote}

theorem splitFrom_cons (prev : Option Char) (c : Char) (rest : List Char) (s : Splitter) :
    splitFrom prev (c :: rest) s = splitFrom (some c) rest (s.next prev c rest.head?) := rfl

/-- The loop goes through a string. -/
theorem splitFrom_items {items : List StringItem} (rest : List Char) {prev : Char}
    (hitems : ∀ item ∈ items, item.Fits quote)
    (hclear : QuotesClear quote prev items)
    (hbreaks : ∀ c ∈ items.flatMap (StringItem.render quote), c ∉ ['\r', '\n']) :
    splitFrom (some prev) (items.flatMap (StringItem.render quote) ++ quote.char :: rest)
        ⟨quote.status, .none, query, queries⟩ =
      splitFrom (some quote.char) rest ⟨.none, .none,
        query ++ (items.flatMap (StringItem.render quote) ++ [quote.char]), queries⟩ := by
  induction items generalizing prev query with
  | nil =>
      rw [List.flatMap_nil, List.nil_append, splitFrom_cons,
        next_close fun h => hclear (Option.some.inj h)]
      rfl
  | cons item items ih =>
      have hitems' : ∀ item ∈ items, item.Fits quote := fun item hitem =>
        hitems item (List.mem_cons_of_mem _ hitem)
      have hbreaks' : ∀ c ∈ items.flatMap (StringItem.render quote), c ∉ ['\r', '\n'] := fun c hc =>
        hbreaks c (by rw [List.flatMap_cons]; exact List.mem_append_right _ hc)
      have hbreak : ∀ c ∈ item.render quote, c ∉ ['\r', '\n'] := fun c hc =>
        hbreaks c (by rw [List.flatMap_cons]; exact List.mem_append_left _ hc)
      rw [List.flatMap_cons, List.append_assoc]
      cases item with
      | char c =>
          show splitFrom (some prev) (c :: (items.flatMap (StringItem.render quote) ++
            quote.char :: rest)) _ = _
          rw [splitFrom_cons, next_inString (hbreak c List.mem_cons_self)
            (.inl (hitems (.char c) List.mem_cons_self).1), ih hitems' hclear hbreaks', List.append_assoc]
          rfl
      | escaped c =>
          have hquote : backslash ≠ quote.char := by
            cases quote with
            | single => decide
            | double => decide
          -- the backslash is taken like any other, and keeps the quote after it from ending the string
          show splitFrom (some prev) (backslash :: c :: (items.flatMap (StringItem.render quote) ++
            quote.char :: rest)) _ = _
          rw [splitFrom_cons, next_inString (by decide) (.inl hquote), splitFrom_cons,
            next_inString (hbreak c (List.mem_cons_of_mem _ List.mem_cons_self)) (.inr rfl),
            ih hitems' hclear hbreaks', List.append_assoc, List.append_assoc]
          rfl
      | doubled =>
          -- the first quote ends the string, the second begins it again
          show splitFrom (some prev) (quote.char :: quote.char ::
            (items.flatMap (StringItem.render quote) ++ quote.char :: rest)) _ = _
          rw [splitFrom_cons, next_close fun h => hclear.1 (Option.some.inj h), splitFrom_cons,
            next_open, ih hitems' hclear.2 hbreaks', List.append_assoc, List.append_assoc]
          rfl

/-- The loop goes through a block comment. -/
theorem splitFrom_block {text : List Char} (rest : List Char) {prev : Char}
    (hends : ¬['*', '/'] <:+: text) (hprev : prev = '*' → text.head? ≠ some '/') :
    splitFrom (some prev) (text ++ '*' :: '/' :: rest) ⟨.none, .multiline, query, queries⟩ =
      splitFrom (some '/') rest ⟨.none, .none, query ++ lineBreaks text, queries⟩ := by
  induction text generalizing prev query with
  | nil =>
      rw [List.nil_append, splitFrom_cons, next_inBlock fun h => absurd h (by decide),
        splitFrom_cons]
      simp [Splitter.next, lineBreaks]
  | cons c text ih =>
      have hstays : c = '/' → some prev ≠ some '*' := by
        rintro rfl hstar
        exact hprev (Option.some.inj hstar) rfl
      -- the induction needs of the next step that no star is before a slash
      have hnext : c = '*' → text.head? ≠ some '/' := by
        rintro rfl hhead
        obtain ⟨more, rfl⟩ := List.head?_eq_some_iff.mp hhead
        exact hends ⟨[], more, rfl⟩
      rw [List.cons_append, splitFrom_cons, next_inBlock hstays,
        ih (fun hpart => hends (hpart.trans (List.suffix_cons c text).isInfix)) hnext,
        List.append_assoc]
      unfold lineBreaks
      rw [← List.map_append, ← List.filter_append, List.singleton_append]

/-- The loop goes through the end of a line. -/
theorem splitFrom_returns (query : List Char) (queries : List (List Char)) {text : List Char}
    (rest : List Char) (prev : Char) (h : ∀ c ∈ text, c = '\r') :
    ∃ prev', splitFrom (some prev) (text ++ rest) ⟨.none, .none, query, queries⟩ =
      splitFrom (some prev') rest ⟨.none, .none, query, queries⟩ := by
  induction text generalizing prev with
  | nil => exact ⟨prev, rfl⟩
  | cons c text ih =>
      obtain rfl := h c List.mem_cons_self
      exact ih '\r' fun c hc => h c (List.mem_cons_of_mem _ hc)

/-- The loop goes through a line comment. -/
theorem splitFrom_line (query : List Char) (queries : List (List Char)) {text : List Char}
    {rest : List Char} (prev : Char) (hfeed : '\n' ∉ text)
    (hblock : ¬['/', '*'] <:+: text) (hreturns : ∀ c ∈ text.dropWhile (· ≠ '\r'), c = '\r')
    (hrest : rest.head? ≠ some '*') :
    ∃ prev' scope, scope ≠ CommentScope.multiline ∧
      splitFrom (some prev) (text ++ rest) ⟨.none, .singleline, query, queries⟩ =
        splitFrom (some prev') rest ⟨.none, scope, query, queries⟩ := by
  induction text generalizing prev with
  | nil => exact ⟨prev, .singleline, by decide, rfl⟩
  | cons c text ih =>
      by_cases hcarriage : c = '\r'
      · -- here the loop is out of the comment; only carriage returns are left of it
        subst hcarriage
        rw [List.dropWhile_cons_of_neg (by simp)] at hreturns
        obtain ⟨prev', hrun⟩ := splitFrom_returns query queries rest '\r' fun c hc =>
          hreturns c (List.mem_cons_of_mem _ hc)
        exact ⟨prev', .none, by decide, hrun⟩
      · rw [List.dropWhile_cons_of_pos (by simp [hcarriage])] at hreturns
        have hfeeds : c ≠ '\n' ∧ '\n' ∉ text := by
          rw [List.mem_cons, not_or] at hfeed
          exact ⟨Ne.symm hfeed.1, hfeed.2⟩
        have hnext : c = '/' → (text ++ rest).head? ≠ some '*' := by
          rintro rfl hhead
          cases text with
          | nil => exact hrest hhead
          | cons second more =>
              obtain rfl : second = '*' := Option.some.inj hhead
              exact hblock ⟨[], more, rfl⟩
        rw [List.cons_append, splitFrom_cons, next_inLine (by simp [hcarriage, hfeeds.1]) hnext]
        exact ih c hfeeds.2 (fun hpart => hblock (hpart.trans (List.suffix_cons c text).isInfix))
          hreturns

/-- The loop goes through a string with its quotes. -/
theorem splitFrom_string {items : List StringItem} (rest : List Char) (prev : Option Char)
    (hitems : ∀ item ∈ items, item.Fits quote) (hclear : QuotesClear quote quote.char items)
    (hsend : (Piece.string quote items).Sendable) :
    splitFrom prev ((Piece.string quote items).render ++ rest) ⟨.none, .none, query, queries⟩ =
      splitFrom (some quote.char) rest
        ⟨.none, .none, query ++ (Piece.string quote items).render, queries⟩ := by
  have hbreaks : ∀ c ∈ items.flatMap (StringItem.render quote), c ∉ ['\r', '\n'] := by
    intro c hc hbreak
    refine hsend c (List.mem_cons_of_mem _ (List.mem_append_left _ hc)) ?_
    rcases List.mem_cons.mp hbreak with rfl | hbreak
    · exact List.mem_cons_self
    · exact List.mem_cons_of_mem _ (List.mem_cons.mpr (.inl (List.mem_singleton.mp hbreak)))
  unfold Piece.render
  rw [List.cons_append, splitFrom_cons, next_open, List.append_assoc]
  exact (splitFrom_items rest hitems hclear hbreaks).trans (by rw [List.append_assoc]; rfl)

/-- The loop goes through a line comment, and at the end of the line it is out of it. -/
theorem splitFrom_lineComment {text rest : List Char} (prev : Option Char) (hfeed : '\n' ∉ text)
    (hend : rest = [] ∨ rest.head? = some '\n') (hblock : ¬['/', '*'] <:+: text)
    (hreturns : ∀ c ∈ text.dropWhile (· ≠ '\r'), c = '\r') :
    ∃ prev' scope, (rest = [] ∨ scope = .none) ∧
      splitFrom prev ((Piece.lineComment text).render ++ rest) ⟨.none, .none, query, queries⟩ =
        splitFrom (some prev') rest ⟨.none, scope, query, queries⟩ := by
  have hstar : rest.head? ≠ some '*' := by
    rcases hend with rfl | hline
    · exact (Option.some_ne_none _).symm
    · rw [hline]
      decide
  obtain ⟨prev', scope, hscope, hrun⟩ := splitFrom_line query queries '-' hfeed hblock hreturns hstar
  have hopen : Splitter.next ⟨.none, .none, query, queries⟩ prev '-' (some '-') =
      ⟨.none, .singleline, query, queries⟩ := by
    simp [Splitter.next]
  have hcomment : splitFrom prev ((Piece.lineComment text).render ++ rest)
      ⟨.none, .none, query, queries⟩ = splitFrom (some prev') rest ⟨.none, scope, query, queries⟩ := by
    show splitFrom prev ('-' :: '-' :: (text ++ rest)) _ = _
    rw [splitFrom_cons, List.head?_cons, hopen, splitFrom_cons,
      next_inLine (by decide) fun h => absurd h (by decide)]
    exact hrun
  rcases hend with hnothing | hline
  · exact ⟨prev', scope, .inl hnothing, hcomment⟩
  · obtain ⟨more, hmore⟩ := List.head?_eq_some_iff.mp hline
    refine ⟨prev', .none, .inr rfl, hcomment.trans ?_⟩
    rw [hmore, splitFrom_cons, splitFrom_cons, next_feed hscope, next_feed (by decide)]

/-- The loop goes through a block comment with what opens and closes it. -/
theorem splitFrom_blockComment {text : List Char} (rest : List Char) (prev : Option Char)
    (hends : ¬['*', '/'] <:+: text) (hslash : text.head? ≠ some '/') :
    splitFrom prev ((Piece.blockComment text).render ++ rest) ⟨.none, .none, query, queries⟩ =
      splitFrom (some '/') rest ⟨.none, .none, query ++ lineBreaks text, queries⟩ := by
  have hopen : Splitter.next ⟨.none, .none, query, queries⟩ prev '/' (some '*') =
      ⟨.none, .multiline, query, queries⟩ := by
    simp [Splitter.next]
  have hstar : ∀ next, Splitter.next ⟨.none, .multiline, query, queries⟩ (some '/') '*' next =
      ⟨.none, .multiline, query, queries⟩ := by
    intro next
    simp [Splitter.next]
  show splitFrom prev ('/' :: '*' :: ((text ++ ['*', '/']) ++ rest)) _ = _
  rw [splitFrom_cons, List.head?_cons, hopen, splitFrom_cons, hstar, List.append_assoc]
  exact splitFrom_block rest hends fun _ => hslash

/-- What the loop has found, with what is left at the end. -/
def Splitter.found (s : Splitter) : List (List Char) :=
  s.queries ++ if s.query.any fun c => c ∉ ['\t', '\r', '\n', ' '] then [s.query] else []

/-- The loop finds the statements of a script it can read. -/
theorem splitFrom_script (query : List Char) (queries : List (List Char)) {script : List Piece}
    (hwell : WellFormed script) (hread : Readable script)
    (hsend : ∀ piece ∈ script, piece.Sendable) (prev : Option Char) :
    (splitFrom prev (renderScript script) ⟨.none, .none, query, queries⟩).stringScope = .none ∧
      (splitFrom prev (renderScript script) ⟨.none, .none, query, queries⟩).found =
        queries ++ statementsFrom query script := by
  induction script generalizing prev query queries with
  | nil => exact ⟨rfl, rfl⟩
  | cons piece rest ih =>
      have hrest : ∀ piece ∈ rest, piece.Sendable := fun piece hpiece =>
        hsend piece (List.mem_cons_of_mem _ hpiece)
      have hrender : renderScript (piece :: rest) = piece.render ++ renderScript rest := rfl
      rw [hrender]
      cases piece with
      | plain c =>
          obtain ⟨⟨hsingle, hdouble, hline, hblock⟩, hwell⟩ := hwell
          show (splitFrom prev (c :: renderScript rest) _).stringScope = .none ∧
            (splitFrom prev (c :: renderScript rest) _).found = _
          rw [splitFrom_cons]
          unfold statementsFrom
          by_cases hcut : c = ';'
          · subst hcut
            rw [next_cut, if_pos rfl, List.append_cons queries _ (statementsFrom [] rest)]
            exact ih _ _ hwell hread.2 hrest _
          · rw [next_plain ⟨hsingle, hdouble⟩ hline hblock hread.1 hcut, if_neg hcut]
            exact ih _ _ hwell hread.2 hrest _
      | string quote items =>
          rw [splitFrom_string _ _ hwell.1.1 hread.1 (hsend _ List.mem_cons_self)]
          exact ih _ _ hwell.2 hread.2 hrest _
      | lineComment text =>
          obtain ⟨⟨hfeed, hend⟩, hwell⟩ := hwell
          obtain ⟨⟨hblock, hreturns⟩, hread⟩ := hread
          have hnext : renderScript rest = [] ∨ (renderScript rest).head? = some '\n' :=
            hend.imp_left fun (hnothing : rest = []) => congrArg renderScript hnothing
          obtain ⟨prev', scope, hscope, hrun⟩ :=
            splitFrom_lineComment prev hfeed hnext hblock hreturns
          rw [hrun]
          rcases hend with rfl | hline
          · exact ⟨rfl, rfl⟩
          · have hout : scope = .none := hscope.resolve_left fun hnothing => by
              rw [hnothing] at hline
              cases hline
            rw [hout]
            exact ih _ _ hwell hread hrest _
      | blockComment text =>
          rw [splitFrom_blockComment _ _ hwell.1 hread.1]
          exact ih _ _ hwell.2 hread.2 hrest _

end Run

section Breaks

/-- No line breaks. -/
def Unbroken (text : List Char) : Prop := ∀ c ∈ text, c ∉ ['\r', '\n']

theorem unbroken_concat {text : List Char} {c : Char} (h : Unbroken text) (hc : c ∉ ['\r', '\n']) :
    Unbroken (text ++ [c]) := by
  intro d hd
  rcases List.mem_append.mp hd with hold | hnew
  · exact h d hold
  · rw [List.mem_singleton.mp hnew]
    exact hc

/-- The loop takes no line breaks. -/
theorem next_unbroken {s : Splitter} (prev : Option Char) (c : Char) (next : Option Char)
    (hquery : Unbroken s.query) (hqueries : ∀ query ∈ s.queries, Unbroken query) :
    Unbroken (s.next prev c next).query ∧ ∀ query ∈ (s.next prev c next).queries, Unbroken query := by
  unfold Splitter.next
  by_cases hbreak : c = '\r' ∨ c = '\n'
  · rw [if_pos hbreak]
    refine ⟨?_, hqueries⟩
    show Unbroken (if c = '\n' then s.query ++ [' '] else s.query)
    split_ifs
    · exact unbroken_concat hquery (by decide)
    · exact hquery
  · have hc : c ∉ ['\r', '\n'] := by simpa using hbreak
    rw [if_neg hbreak]
    dsimp only
    split_ifs with hend hblock hcomment hline hcut
    · exact ⟨hquery, hqueries⟩
    · exact ⟨hquery, hqueries⟩
    · exact ⟨hquery, hqueries⟩
    · exact ⟨hquery, hqueries⟩
    · refine ⟨fun d hd => absurd hd List.not_mem_nil, fun query hmem => ?_⟩
      rcases List.mem_append.mp hmem with hold | hnew
      · exact hqueries query hold
      · rw [List.mem_singleton.mp hnew]
        exact unbroken_concat hquery hc
    · exact ⟨unbroken_concat hquery hc, hqueries⟩

theorem splitFrom_unbroken {text : List Char} {s : Splitter} (prev : Option Char)
    (hquery : Unbroken s.query) (hqueries : ∀ query ∈ s.queries, Unbroken query) :
    ∀ query ∈ (splitFrom prev text s).found, Unbroken query := by
  induction text generalizing prev s with
  | nil =>
      intro query hfound
      unfold splitFrom Splitter.found at hfound
      rcases List.mem_append.mp hfound with hold | hlast
      · exact hqueries query hold
      · split_ifs at hlast
        · rw [List.mem_singleton.mp hlast]
          exact hquery
        · cases hlast
  | cons c text ih =>
      obtain ⟨hnext, hnexts⟩ := next_unbroken prev c text.head? hquery hqueries
      exact ih (some c) hnext hnexts

end Breaks

section Statements

variable {query : List Char} {script : List Piece}

/-- There is more in a statement than blanks. -/
def Filled (text : List Char) : Prop := ∃ c ∈ text, c ∉ ['\t', '\r', '\n', ' ']

/-- What has begun a statement is in one. -/
theorem exists_of_filled (script : List Piece) (h : Filled query) :
    ∃ statement ∈ statementsFrom query script, query ⊆ statement := by
  have hmore : ∀ more, Filled (query ++ more) := fun more =>
    h.imp fun c hc => ⟨List.mem_append_left more hc.1, hc.2⟩
  induction script generalizing query with
  | nil =>
      have hany : (query.any fun c => c ∉ ['\t', '\r', '\n', ' ']) = true :=
        List.any_eq_true.mpr (h.imp fun c hc => ⟨hc.1, decide_eq_true hc.2⟩)
      unfold statementsFrom
      rw [if_pos hany]
      exact ⟨query, List.mem_singleton_self _, List.Subset.refl _⟩
  | cons piece rest ih =>
      -- whatever a piece adds, the statement goes on
      have hgoes : ∀ more, ∃ statement ∈ statementsFrom (query ++ more) rest, query ⊆ statement := by
        intro more
        obtain ⟨statement, hmem, hsub⟩ := ih (hmore more) fun more' => by
          rw [List.append_assoc]
          exact hmore (more ++ more')
        exact ⟨statement, hmem, fun c hc => hsub (List.mem_append_left _ hc)⟩
      cases piece with
      | plain c =>
          unfold statementsFrom
          split_ifs with hcut
          · exact ⟨_, List.mem_cons_self, List.subset_append_left _ _⟩
          · exact hgoes _
      | string quote items => exact hgoes _
      | lineComment text =>
          have hsame := hgoes []
          rw [List.append_nil] at hsame
          exact hsame
      | blockComment text => exact hgoes _

/-- What is not a comment is in a statement. -/
theorem exists_of_mem (query : List Char) {piece : Piece} (hpiece : piece ∈ script) (hfilled : Filled piece.render)
    (hplain : ∀ c, piece = .plain c → c ∉ ['\r', '\n']) (hline : ∀ text, piece ≠ .lineComment text)
    (hblock : ∀ text, piece ≠ .blockComment text) :
    ∃ statement ∈ statementsFrom query script, piece.render ⊆ statement := by
  induction script generalizing query with
  | nil => cases hpiece
  | cons first rest ih =>
      have hfill : Filled (query ++ piece.render) :=
        hfilled.imp fun c hc => ⟨List.mem_append_right _ hc.1, hc.2⟩
      have hbegun : ∃ statement ∈ statementsFrom (query ++ piece.render) rest,
          piece.render ⊆ statement := by
        obtain ⟨statement, hmem, hsub⟩ := exists_of_filled rest hfill
        exact ⟨statement, hmem, fun c hc => hsub (List.mem_append_right _ hc)⟩
      rcases List.mem_cons.mp hpiece with rfl | hlater
      · cases piece with
        | plain c =>
            have hbreak := hplain c rfl
            have htext : ∀ next, plainText c next = [c] := by
              intro next
              unfold plainText
              rw [if_neg fun h => hbreak (by simp [h.1]), if_neg fun h => hbreak (by simpa using h)]
            unfold statementsFrom
            split_ifs with hcut
            · exact ⟨_, List.mem_cons_self, List.subset_append_right _ _⟩
            · rw [htext]
              exact hbegun
        | string quote items => exact hbegun
        | lineComment text => exact absurd rfl (hline text)
        | blockComment text => exact absurd rfl (hblock text)
      · cases first with
        | plain c =>
            unfold statementsFrom
            split_ifs with hcut
            · have hlast : ∃ statement ∈ statementsFrom [] rest, piece.render ⊆ statement := ih _ hlater
              obtain ⟨statement, hmem, hsub⟩ := hlast
              exact ⟨statement, List.mem_cons_of_mem _ hmem, hsub⟩
            · exact ih _ hlater
        | string quote items => exact ih _ hlater
        | lineComment text => exact ih _ hlater
        | blockComment text => exact ih _ hlater

/-- The statements have no null characters when they can be sent. -/
theorem statements_noNull (hsend : ∀ piece ∈ script, piece.Sendable) (hquery : nullChar ∉ query) :
    ∀ statement ∈ statementsFrom query script, nullChar ∉ statement := by
  induction script generalizing query with
  | nil =>
      intro statement hmem
      unfold statementsFrom at hmem
      split_ifs at hmem
      · rw [List.mem_singleton.mp hmem]
        exact hquery
      · cases hmem
  | cons piece rest ih =>
      have hrest : ∀ piece ∈ rest, piece.Sendable := fun piece hpiece =>
        hsend piece (List.mem_cons_of_mem _ hpiece)
      have hgoes : ∀ more, nullChar ∉ more →
          ∀ statement ∈ statementsFrom (query ++ more) rest, nullChar ∉ statement := by
        intro more hmore
        refine ih hrest fun hmem => ?_
        exact (List.mem_append.mp hmem).elim hquery hmore
      have hpiece := hsend piece List.mem_cons_self
      cases piece with
      | plain c =>
          have hc : c ≠ nullChar := hpiece
          unfold statementsFrom
          split_ifs with hcut
          · intro statement hmem
            rcases List.mem_cons.mp hmem with rfl | hmem
            · rw [List.mem_append, List.mem_singleton, not_or]
              exact ⟨hquery, Ne.symm hc⟩
            · exact ih hrest List.not_mem_nil statement hmem
          · refine hgoes _ fun hmem => ?_
            unfold plainText at hmem
            split_ifs at hmem
            · cases hmem
            · revert hmem
              decide
            · exact hc (List.mem_singleton.mp hmem).symm
      | string quote items =>
          exact hgoes _ fun hmem => hpiece _ hmem (by simp)
      | lineComment text => exact ih hrest hquery
      | blockComment text =>
          refine hgoes _ fun hmem => ?_
          obtain ⟨c, -, hblank⟩ := List.mem_map.mp hmem
          revert hblank
          decide

end Statements

section Claim

variable {m : FileMigration} {script : List Piece}

/-- The file does not end inside of a string, and the queries are the statements of the script. -/
structure FileMigration.Splits (m : FileMigration) (script : List Piece) : Prop where
  ends : m.midString = false
  same : m.queries = (statements script).map String.ofList

/-- The statements are issued in their order, and then the record. -/
theorem executeUpdate_splits {Db : Type*} (server : Server Db) {t : Target Db}
    (h : m.Splits script) (ht : t.transaction = none) :
    t.executeUpdate server m =
      Target.commitTransactionDirect server
        { t with transaction := some ((statements script).map String.ofList ++ [m.recordQuery]) } := by
  have hfold : ∀ (queries queue : List String) (t : Target Db), t.transaction = some queue →
      queries.foldl Target.execute t = { t with transaction := some (queue ++ queries) } := by
    intro queries
    induction queries with
    | nil =>
        intro queue t hqueue
        rw [List.append_nil, ← hqueue]
        rfl
    | cons query rest ih =>
        intro queue t hqueue
        have hstep : (t.execute query).transaction = some (queue ++ [query]) := by
          unfold Target.execute
          rw [hqueue]
          rfl
        rw [List.foldl_cons, ih _ _ hstep, List.append_assoc]
        rfl
  unfold Target.executeUpdate Target.beginTransaction
  rw [ht, h.ends, h.same]
  simp only [Option.isSome_none, Bool.false_eq_true, if_false]
  rw [hfold _ [] _ rfl]
  rfl

theorem queries_eq (m : FileMigration) : m.queries = m.split.found.map cStr := rfl

theorem cStr_eq {query : List Char} (h : nullChar ∉ query) :
    cStr query = String.ofList query := by
  have hall : ∀ c ∈ query, decide (c ≠ Char.ofNat 0) = true := by
    intro c hc
    refine decide_eq_true fun hnull => ?_
    subst hnull
    exact h hc
  unfold cStr
  rw [List.takeWhile_eq_self_iff.mpr hall]

/-- A script is split into its statements if the loop can read it, its strings are of one line and nothing that is
sent has a null character; and only if the last two are so. -/
theorem executeUpdate_splits_of (m : FileMigration) (script : List Piece)
    (hdata : m.fileData = renderScript script) (hwell : WellFormed script) :
    (Readable script → (∀ piece ∈ script, piece.Sendable) → m.Splits script) ∧
      (m.Splits script → ∀ piece ∈ script, piece.Sendable) := by
  have hsplit : m.split = splitFrom none (renderScript script) ⟨.none, .none, [], []⟩ := by
    rw [← hdata]
    rfl
  constructor
  · intro hread hsend
    obtain ⟨hscope, hfound⟩ := splitFrom_script [] [] hwell hread hsend none
    rw [← hsplit] at hscope hfound
    refine ⟨decide_eq_false (not_not.mpr hscope), ?_⟩
    rw [queries_eq, hfound]
    exact List.map_congr_left fun statement hmem =>
      cStr_eq (statements_noNull hsend List.not_mem_nil statement hmem)
  · intro hsplits
    -- no query has a line break or a null character, and the queries are the statements
    have hclean : ∀ statement ∈ statements script, ∀ c ∈ statement, c ∉ ['\r', '\n', nullChar] := by
      intro statement hmem c hc
      have hquery : String.ofList statement ∈ m.queries := by
        rw [hsplits.same]
        exact List.mem_map_of_mem hmem
      rw [queries_eq] at hquery
      obtain ⟨query, hfound, hsame⟩ := List.mem_map.mp hquery
      have htake : query.takeWhile (fun c => c ≠ Char.ofNat 0) = statement :=
        String.ofList_injective hsame
      have hunbroken : ∀ query ∈ m.split.found, Unbroken query := by
        rw [hsplit]
        exact splitFrom_unbroken none (fun c hc => absurd hc List.not_mem_nil)
          fun query hquery => absurd hquery List.not_mem_nil
      rw [← htake] at hc
      have hkept := List.mem_takeWhile_imp hc
      have hnull : c ≠ nullChar := of_decide_eq_true hkept
      have hbreak := hunbroken query hfound c ((List.takeWhile_prefix _).subset hc)
      simp only [List.mem_cons, List.not_mem_nil, or_false, not_or] at hbreak ⊢
      exact ⟨hbreak.1, hbreak.2, hnull⟩
    intro piece hpiece
    cases piece with
    | plain c =>
        rintro rfl
        obtain ⟨statement, hmem, hsub⟩ := exists_of_mem [] hpiece
          ⟨nullChar, List.mem_singleton_self _, by decide⟩
          (fun c hc => by cases hc; decide) (fun text => nofun) (fun text => nofun)
        exact hclean statement hmem nullChar (hsub (List.mem_singleton_self _)) (by decide)
    | string quote items =>
        obtain ⟨statement, hmem, hsub⟩ := exists_of_mem [] hpiece
          ⟨quote.char, List.mem_cons_self, by cases quote <;> decide⟩
          (fun c => nofun) (fun text => nofun) (fun text => nofun)
        exact fun c hc => hclean statement hmem c (hsub hc)
    | lineComment text => exact trivial
    | blockComment text => exact trivial

/-- A script with a string, a line comment and a block comment. -/
theorem executeUpdate_splits_comments :
    (⟨⟨"", "", ""⟩, renderScript
        [.string .single [.char 'a', .doubled, .escaped singleQuote, .char ';'], .plain ';',
          .lineComment "it's; ".toList, .plain '\n', .blockComment "-- ;".toList, .plain 'b'],
        0⟩ : FileMigration).Splits
      [.string .single [.char 'a', .doubled, .escaped singleQuote, .char ';'], .plain ';',
        .lineComment "it's; ".toList, .plain '\n', .blockComment "-- ;".toList, .plain 'b'] :=
  (executeUpdate_splits_of _ _ rfl (by decide)).1 (by decide) (by decide)

/-- The opening of a block comment in a line comment hides the statement after it. -/
theorem executeUpdate_lineComment : ¬∀ (m : FileMigration) (script : List Piece),
    m.fileData = renderScript script → WellFormed script → m.Splits script := by
  intro h
  have hsplits := h ⟨⟨"", "", ""⟩, "-- see /* there\nb;".toList, 0⟩
    [.lineComment " see /* there".toList, .plain '\n', .plain 'b', .plain ';'] rfl (by decide)
  exact absurd hsplits.same (by decide)

end Claim

end TwowCore.Database
