/-
  EmScale/Proofs/Sheet/Piece.lean
  ===============================
  **Which pieces are read.**

  For each kind of piece this file says what its texts have to be like for the piece to be
  read back from its own text: what may stand in front of it, where its name, its colon or
  its prelude begins, and that the character behind it ends it.  The conditions are exact:
  `Piece.read_eq_piece_iff` states that a piece is read if and only if its text stands there
  and the conditions hold.
-/
import EmScale.Proofs.Sheet.Statement
import EmScale.Sheet.Piece

namespace EmScale

open Unicode (isWhiteSpace isAlphanumeric)
open Text (IsBlank IsTight StartsOff)

/-! ### Shapes -/

/-- Nothing but blanks and stray semicolons. -/
def Text.IsFiller (t : Text) : Prop :=
  ∀ c ∈ t, isFiller c = true

instance (t : Text) : Decidable t.IsFiller :=
  decidable_of_iff (t.all EmScale.isFiller = true) List.all_eq_true

theorem Text.IsBlank.isFiller {t : Text} (h : t.IsBlank) : t.IsFiller := by
  intro c hc
  simp [EmScale.isFiller, h c hc]

theorem Text.IsFiller.append {a b : Text} (ha : a.IsFiller) (hb : b.IsFiller) :
    (a ++ b).IsFiller := by
  intro c hc
  rcases List.mem_append.mp hc with hc | hc
  · exact ha c hc
  · exact hb c hc

/-- Whether a rule or a declaration may start with a text. -/
def opensStatement : Text → Bool
  | [] => false
  | c :: rest => !isFiller c && c != '}' && c != '@' && !(c == '/' && rest.head? == some '*')

/-- The text of a declaration without what surrounds it. -/
def Declaration.text (decl : Declaration) : Text :=
  decl.prop ++ decl.between ++ decl.value

/-- The head of a rule without what belongs to its block and its place. -/
def Rule.bare (head : Rule) : Rule :=
  { selector := head.selector,
    raws := { before := head.raws.before, between := head.raws.between } }

/-- The head of an at-rule without what belongs to its block and its place. -/
def AtRule.bare (head : AtRule) : AtRule :=
  { name := head.name, params := head.params, afterName := head.afterName,
    raws := { before := head.raws.before, between := head.raws.between } }

/-- The head of a rule that is read. -/
structure Rule.Reads (head : Rule) : Prop where
  before : head.raws.before.IsFiller
  opens : opensStatement (head.selector ++ head.raws.between ++ ['{']) = true
  statement : Statement.Delimits head.selector head.raws.between (some '{')

/-- The head of an at-rule whose parts have their shape if the blanks `trailing` and the
    character `stop` follow it. -/
structure AtRule.Stands (head : AtRule) (trailing : Text) (stop : Option Char) : Prop where
  before : head.raws.before.IsFiller
  named : head.name ≠ []
  name : ∀ c ∈ head.name, isNameCharacter c = true
  afterName : IsBlank head.afterName
  params : StartsOff isWhiteSpace (head.params ++ trailing)
  statement : Statement.Delimits head.params trailing stop

/-- The head of an at-rule whose name does not go on into its prelude. -/
def AtRule.IsSeparated (head : AtRule) : Prop :=
  StartsOff isNameCharacter (head.afterName ++ head.params)

instance (head : AtRule) : Decidable head.IsSeparated := by
  unfold AtRule.IsSeparated; infer_instance

/-- The head of an at-rule that is read if the blanks `trailing` and the character `stop`
    follow it. -/
structure AtRule.Reads (head : AtRule) (trailing : Text) (stop : Option Char) : Prop
    extends head.Stands trailing stop where
  separated : head.IsSeparated

/-- A declaration that is read if the blanks `trailing` and the character `stop` follow it. -/
structure Declaration.Reads (decl : Declaration) (trailing : Text) (stop : Option Char) :
    Prop where
  before : decl.before.IsFiller
  opens : opensStatement decl.text = true
  prop : ∀ c ∈ decl.prop, (c != ':') = true
  tight : IsTight decl.prop
  between : ∃ left right, decl.between = left ++ ':' :: right ∧ IsBlank left ∧ IsBlank right
  value : StartsOff isWhiteSpace decl.value
  statement : Statement.Delimits decl.text trailing stop

theorem Declaration.Reads.colon_mem {decl : Declaration} {trailing : Text} {stop : Option Char}
    (h : decl.Reads trailing stop) : ':' ∈ decl.text := by
  obtain ⟨left, right, hbetween, -, -⟩ := h.between
  simp [Declaration.text, hbetween]

/-- A comment that is read. -/
structure Comment.Reads (note : Comment) : Prop where
  before : note.before.IsFiller
  text : ¬ ['*', '/'] <:+: note.text

namespace Piece

/-- Blanks, and then the end of the text or a closing brace: what follows a declaration or an
    at-rule that no semicolon closes. -/
def Closes (rest trailing : Text) (stop : Option Char) : Prop :=
  ∃ tail, rest = trailing ++ tail ∧ tail.head? = stop ∧ (stop = none ∨ stop = some '}')

theorem closes_end (trailing : Text) : Closes trailing trailing none :=
  ⟨[], (List.append_nil _).symm, rfl, Or.inl rfl⟩

theorem closes_brace (trailing rest : Text) : Closes (trailing ++ '}' :: rest) trailing (some '}') :=
  ⟨'}' :: rest, rfl, rfl, Or.inr rfl⟩

/-- A piece that is read if `rest` follows it. -/
def Reads (rest : Text) : Piece → Prop
  | closing after => after.IsFiller
  | opening (.rule head) => head.bare = head ∧ head.Reads
  | opening (.atRule head) => head.bare = head ∧ head.Reads head.raws.between (some '{')
  | leaf (.comment note) closed => note.span = {} ∧ closed = false ∧ note.Reads
  | leaf (.atLine head) true => head.bare = head ∧ head.Reads head.raws.between (some ';')
  | leaf (.atLine head) false =>
    head.bare = head ∧ head.raws.between = [] ∧
      ∃ trailing stop, Closes rest trailing stop ∧ head.Reads trailing stop
  | leaf (.declaration decl) true => decl.span = {} ∧ decl.Reads decl.after (some ';')
  | leaf (.declaration decl) false =>
    decl.span = {} ∧ decl.after = [] ∧
      ∃ trailing stop, Closes rest trailing stop ∧ decl.Reads trailing stop
  | leaf _ _ => False

/-! ### Comments -/

theorem splitComment_eq_some_iff {source text rest : Text} :
    splitComment source = some (text, rest) ↔
      text ++ '*' :: '/' :: rest = source ∧ ¬ ['*', '/'] <:+: text := by
  fun_induction splitComment source generalizing text rest with
  | case1 => simp
  | case2 tail =>
    constructor
    · intro h
      cases h
      exact ⟨rfl, by simp⟩
    · rintro ⟨hwhole, hfree⟩
      rcases text with _ | ⟨a, _ | ⟨b, text⟩⟩
      · cases hwhole
        rfl
      · simp at hwhole
      · simp only [List.cons_append, List.cons.injEq] at hwhole
        obtain ⟨rfl, rfl, -⟩ := hwhole
        exact absurd ⟨[], text, rfl⟩ hfree
  | case3 c tail hne ih =>
    simp only [Option.map_eq_some_iff, Prod.mk.injEq, Prod.exists]
    constructor
    · rintro ⟨text', rest', hsplit, rfl, rfl⟩
      obtain ⟨rfl, hfree⟩ := ih.mp hsplit
      refine ⟨rfl, ?_⟩
      rw [List.infix_cons_iff]
      rintro (hstart | hlater)
      · rcases text' with _ | ⟨d, text'⟩
        · simp at hstart
        · simp only [List.cons_prefix_cons, List.nil_prefix, and_true] at hstart
          obtain ⟨rfl, rfl⟩ := hstart
          exact hne _ rfl rfl
      · exact hfree hlater
    · rintro ⟨hwhole, hfree⟩
      cases text with
      | nil =>
        simp only [List.nil_append, List.cons.injEq] at hwhole
        exact absurd hwhole.2.symm (by rintro rfl; exact hne _ hwhole.1.symm rfl)
      | cons d text =>
        simp only [List.cons_append, List.cons.injEq] at hwhole
        obtain ⟨rfl, rfl⟩ := hwhole
        refine ⟨text, rest, ih.mpr ⟨rfl, ?_⟩, rfl, rfl⟩
        intro hlater
        exact hfree (List.infix_cons_iff.mpr (Or.inr hlater))

theorem readComment_eq_ok_iff {before source rest : Text} {piece : Piece} :
    readComment before source = .ok (.piece piece rest) ↔
      ∃ text, piece = .leaf (.comment { text, before }) false ∧
        text ++ '*' :: '/' :: rest = source ∧ ¬ ['*', '/'] <:+: text := by
  unfold readComment
  constructor
  · intro h
    split at h
    · cases h
    · rename_i text tail hsplit
      cases h
      exact ⟨text, rfl, splitComment_eq_some_iff.mp hsplit⟩
  · rintro ⟨text, rfl, hwhole⟩
    rw [splitComment_eq_some_iff.mpr hwhole]

/-! ### At-rules -/

/-- The name of an at-rule and the blanks behind it mean nothing to the scan of statements. -/
theorem isInert_name {name blanks : Text} (hname : ∀ c ∈ name, isNameCharacter c = true)
    (hblanks : IsBlank blanks) : ∀ c ∈ name ++ blanks, Lexis.isInert c = true := by
  intro c hc
  rcases List.mem_append.mp hc with hc | hc
  · exact Lexis.isInert_of_false (by decide) (hname c hc)
  · exact Lexis.isInert_of_isBlank hblanks c hc

theorem startsOff_of_stop {tail : Text} {p : Char → Bool}
    (htail : ∀ c ∈ tail.head?, c = '{' ∨ c = ';' ∨ c = '}')
    (hp : p '{' = false ∧ p ';' = false ∧ p '}' = false) : StartsOff p tail := by
  intro c hc
  rcases htail c hc with rfl | rfl | rfl
  · exact hp.1
  · exact hp.2.1
  · exact hp.2.2

theorem stop_of_endsAt {s : Lexis} {tail : Text} (h : s.EndsAt tail.head?) :
    ∀ c ∈ tail.head?, c = '{' ∨ c = ';' ∨ c = '}' := by
  intro c hc
  rw [Option.mem_def.mp hc] at h
  exact Lexis.eq_of_stops h

theorem closes_of_endsAt {s : Lexis} {trailing tail : Text} (hends : s.EndsAt tail.head?)
    (hopen : ∀ rest, tail = '{' :: rest → False)
    (hsemicolon : ∀ rest, tail = ';' :: rest → False) :
    Closes (trailing ++ tail) trailing tail.head? := by
  refine ⟨tail, rfl, rfl, ?_⟩
  rcases tail with _ | ⟨c, tail⟩
  · exact Or.inl rfl
  · rcases Lexis.eq_of_stops hends with rfl | rfl | rfl
    · exact absurd rfl (hopen tail)
    · exact absurd rfl (hsemicolon tail)
    · exact Or.inr rfl

theorem ne_cons_of_closes {tail : Text} {stop : Option Char} (hstop : tail.head? = stop)
    (hend : stop = none ∨ stop = some '}') {c : Char} (hc : c ≠ '}') (rest : Text) :
    tail ≠ c :: rest := by
  rintro rfl
  rcases hend with rfl | rfl
  · cases hstop
  · cases hstop
    exact hc rfl

/-- The blanks behind an empty prelude belong to what follows the name. -/
theorem trailing_eq_nil_of_stands {head : AtRule} {trailing : Text} {stop : Option Char}
    (h : head.Stands trailing stop) (hparams : head.params = []) : trailing = [] := by
  have hoff := h.params
  rw [hparams, List.nil_append] at hoff
  rcases trailing with _ | ⟨c, trailing⟩
  · rfl
  · have hc := h.statement.blank c (by simp)
    rw [Text.startsOff_cons.mp hoff] at hc
    cases hc

/-- **An at-rule is cut where its parts meet.** -/
theorem cut_of_atRuleReads {head : AtRule} {trailing source : Text} (tail : Text)
    (hreads : head.Reads trailing tail.head?)
    (hsource : source = head.name ++ (head.afterName ++ (head.params ++ trailing ++ tail))) :
    source.takeWhile isNameCharacter = head.name ∧
      (source.dropWhile isNameCharacter).takeWhile isWhiteSpace = head.afterName ∧
      Statement.read ((source.dropWhile isNameCharacter).dropWhile isWhiteSpace) =
        .ok ⟨head.params, trailing, tail⟩ := by
  have hstop := stop_of_endsAt hreads.statement.ends
  have hblank : StartsOff isWhiteSpace (head.params ++ trailing ++ tail) :=
    hreads.params.append fun _ => startsOff_of_stop hstop (by decide)
  have hname : StartsOff isNameCharacter (head.afterName ++ (head.params ++ trailing ++ tail)) := by
    rw [List.append_assoc, ← List.append_assoc]
    apply hreads.separated.append
    intro hempty
    obtain ⟨-, hparams⟩ := List.append_eq_nil_iff.mp hempty
    rw [trailing_eq_nil_of_stands hreads.toStands hparams]
    exact startsOff_of_stop hstop (by decide)
  obtain ⟨htake, hdrop⟩ := Text.takeWhile_append_of_startsOff hreads.name hname
  obtain ⟨htake', hdrop'⟩ := Text.takeWhile_append_of_startsOff hreads.afterName hblank
  rw [hsource]
  refine ⟨htake, by rw [hdrop, htake'], ?_⟩
  rw [hdrop, hdrop']
  exact Statement.read_eq_ok_iff.mpr ⟨rfl, hreads.statement⟩

theorem atRuleReads_of_cut {source : Text} {statement : Statement} {raws : BlockRaws}
    (hbefore : raws.before.IsFiller)
    (hnamed : (source.takeWhile isNameCharacter).isEmpty = false)
    (hread : Statement.read ((source.dropWhile isNameCharacter).dropWhile isWhiteSpace) =
      .ok statement) :
    AtRule.Reads
      { name := source.takeWhile isNameCharacter, params := statement.text,
        afterName := (source.dropWhile isNameCharacter).takeWhile isWhiteSpace, raws }
      statement.trailing statement.stop.head? := by
  obtain ⟨hwhole, hdelimits⟩ := Statement.read_eq_ok_iff.mp hread
  have hoff := Text.startsOff_dropWhile isWhiteSpace (source.dropWhile isNameCharacter)
  have hname := Text.startsOff_dropWhile isNameCharacter source
  rw [← List.takeWhile_append_dropWhile (p := isWhiteSpace) (l := source.dropWhile isNameCharacter),
    ← hwhole, ← List.append_assoc, ← List.append_assoc] at hname
  rw [← hwhole] at hoff
  exact {
    before := hbefore
    named := by simpa using hnamed
    name := fun _ hc => Text.mem_takeWhile hc
    separated := hname.of_append.of_append
    afterName := Text.isBlank_takeWhile _
    params := hoff.of_append
    statement := hdelimits }

theorem reads_of_readAtRule {before source rest : Text} {piece : Piece}
    (hbefore : before.IsFiller) (h : readAtRule before source = .ok (.piece piece rest)) :
    piece.Reads rest := by
  unfold readAtRule at h
  simp only [bind, Except.bind, pure, Except.pure, throw, throwThe, MonadExceptOf.throw] at h
  split at h
  · cases h
  · rename_i hnamed
    have hnamed : (source.takeWhile isNameCharacter).isEmpty = false := by simpa using hnamed
    split at h
    · cases h
    · rename_i statement hread
      have hends := (Statement.read_eq_ok_iff.mp hread).2.ends
      have hreads := fun (raws : BlockRaws) (hraws : raws.before.IsFiller) =>
        atRuleReads_of_cut hraws hnamed hread
      split at h
      · rename_i hstop
        cases h
        exact ⟨rfl, by simpa [hstop] using hreads { before, between := statement.trailing } hbefore⟩
      · rename_i hstop
        cases h
        exact ⟨rfl, by simpa [hstop] using hreads { before, between := statement.trailing } hbefore⟩
      · rename_i hopen hsemicolon
        cases h
        exact ⟨rfl, rfl, _, _, closes_of_endsAt hends hopen hsemicolon, hreads _ hbefore⟩

/-- What an at-rule is read as, which the text behind its statement tells. -/
def atRuleReading (head : AtRule) (trailing : Text) : Text → Reading
  | '{' :: rest =>
    let raws := { before := head.raws.before, between := trailing }
    .piece (.opening (.atRule { head.bare with raws })) rest
  | ';' :: rest =>
    let raws := { before := head.raws.before, between := trailing }
    .piece (.leaf (.atLine { head.bare with raws }) true) rest
  | stop =>
    let raws := { before := head.raws.before }
    .piece (.leaf (.atLine { head.bare with raws }) false) (trailing ++ stop)

theorem readAtRule_of_reads {head : AtRule} {trailing : Text} (tail : Text)
    (hreads : head.Reads trailing tail.head?) :
    readAtRule head.raws.before
        (head.name ++ (head.afterName ++ (head.params ++ trailing ++ tail))) =
      .ok (atRuleReading head trailing tail) := by
  obtain ⟨hname, hafter, hread⟩ := cut_of_atRuleReads tail hreads rfl
  have hnamed : head.name.isEmpty = false := by simpa using hreads.named
  unfold readAtRule
  simp only [hname, hafter, hread, hnamed, bind, Except.bind, pure, Except.pure,
    Bool.false_eq_true, if_false]
  split
  · rfl
  · rfl
  · rename_i hopen hsemicolon
    rw [atRuleReading.eq_3 _ _ _ hopen hsemicolon]
    rfl

theorem readAtRule_opening {head : AtRule} (rest : Text) (hbare : head.bare = head)
    (hreads : head.Reads head.raws.between (some '{')) :
    readAtRule head.raws.before
        (head.name ++ (head.afterName ++ (head.params ++ head.raws.between ++ '{' :: rest))) =
      .ok (.piece (.opening (.atRule head)) rest) := by
  rw [readAtRule_of_reads ('{' :: rest) hreads]
  exact congrArg
    (fun head => (.ok (.piece (.opening (.atRule head)) rest) : Except Fault Reading)) hbare

theorem readAtRule_closed {head : AtRule} (rest : Text) (hbare : head.bare = head)
    (hreads : head.Reads head.raws.between (some ';')) :
    readAtRule head.raws.before
        (head.name ++ (head.afterName ++ (head.params ++ head.raws.between ++ ';' :: rest))) =
      .ok (.piece (.leaf (.atLine head) true) rest) := by
  rw [readAtRule_of_reads (';' :: rest) hreads]
  exact congrArg
    (fun head => (.ok (.piece (.leaf (.atLine head) true) rest) : Except Fault Reading)) hbare

theorem readAtRule_unclosed {head : AtRule} {rest trailing : Text} {stop : Option Char}
    (hbare : head.bare = head) (hbetween : head.raws.between = [])
    (hcloses : Closes rest trailing stop) (hreads : head.Reads trailing stop) :
    readAtRule head.raws.before (head.name ++ (head.afterName ++ (head.params ++ rest))) =
      .ok (.piece (.leaf (.atLine head) false) rest) := by
  obtain ⟨tail, rfl, hstop, hend⟩ := hcloses
  have hopen := ne_cons_of_closes hstop hend (c := '{') (by decide)
  have hsemicolon := ne_cons_of_closes hstop hend (c := ';') (by decide)
  rw [← List.append_assoc head.params, readAtRule_of_reads tail (hstop ▸ hreads),
    atRuleReading.eq_3 _ _ _ hopen hsemicolon]
  simp only [AtRule.bare, hbetween] at hbare
  simp only [AtRule.bare, hbare]

/-! ### Rules and declarations -/

/-- **A declaration is cut at its first colon.** -/
theorem cut_of_declarationReads {decl : Declaration} {left right : Text}
    (hprop : ∀ c ∈ decl.prop, (c != ':') = true) (htight : IsTight decl.prop)
    (hbetween : decl.between = left ++ ':' :: right) (hleft : IsBlank left)
    (hright : IsBlank right) (hvalue : StartsOff isWhiteSpace decl.value) :
    Text.trimEnd (decl.text.takeWhile (· != ':')) = decl.prop ∧
      Text.trailing (decl.text.takeWhile (· != ':')) = left ∧
      decl.text.dropWhile (· != ':') = ':' :: (right ++ decl.value) ∧
      (right ++ decl.value).takeWhile isWhiteSpace = right ∧
      Text.trimStart (right ++ decl.value) = decl.value := by
  have hcolon : ∀ c ∈ decl.prop ++ left, (c != ':') = true := by
    intro c hc
    rcases List.mem_append.mp hc with hc | hc
    · exact hprop c hc
    · have hblank := hleft c hc
      rcases eq_or_ne c ':' with rfl | hne
      · exact absurd hblank (by decide)
      · simpa using hne
  have htext : decl.text = decl.prop ++ left ++ ':' :: (right ++ decl.value) := by
    simp [Declaration.text, hbetween]
  obtain ⟨htake, hdrop⟩ := Text.takeWhile_append_of_startsOff (p := (· != ':'))
    (b := ':' :: (right ++ decl.value)) hcolon (by simp)
  obtain ⟨htake', hdrop'⟩ := Text.takeWhile_append_of_startsOff hright hvalue
  obtain ⟨htrim, htrail⟩ := Text.trimEnd_append_of_isTight htight hleft
  rw [htext, htake, hdrop]
  exact ⟨htrim, htrail, rfl, htake', hdrop'⟩

theorem declarationReads_of_cut {before text after trailing right : Text} {colon : Char}
    {stop : Option Char} (hbefore : before.IsFiller) (hopens : opensStatement text = true)
    (hdelimits : Statement.Delimits text trailing stop)
    (hcut : text.dropWhile (· != ':') = colon :: right) :
    Declaration.Reads
      { prop := Text.trimEnd (text.takeWhile (· != ':')), value := Text.trimStart right, before,
        between := Text.trailing (text.takeWhile (· != ':')) ++
          ':' :: right.takeWhile isWhiteSpace, after }
      trailing stop := by
  have htext := splitColon_append hcut
  rw [← List.cons_append, ← List.append_assoc, ← List.append_assoc, List.append_assoc _ _ (_ :: _)]
    at htext
  have hprop : ∀ c ∈ Text.trimEnd (text.takeWhile (· != ':')), (c != ':') = true := by
    intro c hc
    apply Text.mem_takeWhile (p := (· != ':')) (t := text)
    rw [← Text.trimEnd_append_trailing (text.takeWhile (· != ':'))]
    exact List.mem_append_left _ hc
  exact {
    before := hbefore
    opens := by rw [Declaration.text, htext]; exact hopens
    prop := hprop
    tight := Text.isTight_trimEnd _
    between := ⟨_, _, rfl, Text.isBlank_trailing _, Text.isBlank_takeWhile _⟩
    value := Text.startsOff_dropWhile _ _
    statement := by rw [Declaration.text, htext]; exact hdelimits }

/-- What follows a text with a colon in it does not change whether it opens a statement. -/
theorem opensStatement_append {text : Text} (hcolon : ':' ∈ text) (rest : Text) :
    opensStatement (text ++ rest) = opensStatement text := by
  rcases text with _ | ⟨a, _ | ⟨b, text⟩⟩
  · simp at hcolon
  · simp only [List.mem_singleton] at hcolon
    subst hcolon
    rfl
  · simp [opensStatement]

theorem opensStatement_append_brace (text rest : Text) :
    opensStatement (text ++ '{' :: rest) = opensStatement (text ++ ['{']) := by
  rcases text with _ | ⟨a, _ | ⟨b, text⟩⟩
  · rfl
  · rfl
  · simp [opensStatement]

theorem colon_mem_of_dropWhile {text right : Text} {colon : Char}
    (h : text.dropWhile (· != ':') = colon :: right) : ':' ∈ text := by
  rw [← splitColon_append h]
  simp

theorem reads_of_readStatement {before source rest : Text} {piece : Piece}
    (hbefore : before.IsFiller) (hopens : opensStatement source = true)
    (h : readStatement before source = .ok (.piece piece rest)) : piece.Reads rest := by
  unfold readStatement at h
  simp only [bind, Except.bind, pure, Except.pure, throw, throwThe, MonadExceptOf.throw] at h
  split at h
  · cases h
  · rename_i statement hread
    obtain ⟨hwhole, hdelimits⟩ := Statement.read_eq_ok_iff.mp hread
    rcases statement with ⟨text, trailing, stop⟩
    dsimp only at hwhole hdelimits h
    split at h
    · cases h
      rw [← hwhole, opensStatement_append_brace] at hopens
      exact ⟨rfl, hbefore, hopens, hdelimits⟩
    · cases h
    · rename_i hopen hcut
      have htext : opensStatement text = true := by
        rw [← hwhole, List.append_assoc,
          opensStatement_append (colon_mem_of_dropWhile hcut)] at hopens
        exact hopens
      split at h
      · cases h
        exact ⟨rfl, declarationReads_of_cut hbefore htext hdelimits hcut⟩
      · rename_i hsemicolon
        cases h
        exact ⟨rfl, rfl, _, _, closes_of_endsAt hdelimits.ends hopen hsemicolon,
          declarationReads_of_cut hbefore htext hdelimits hcut⟩

theorem readStatement_opening {head : Rule} {rest : Text} (hbare : head.bare = head)
    (hreads : head.Reads) :
    readStatement head.raws.before (head.selector ++ head.raws.between ++ '{' :: rest) =
      .ok (.piece (.opening (.rule head)) rest) := by
  have hread : Statement.read (head.selector ++ head.raws.between ++ '{' :: rest) =
      .ok ⟨head.selector, head.raws.between, '{' :: rest⟩ :=
    Statement.read_eq_ok_iff.mpr ⟨rfl, hreads.statement⟩
  unfold readStatement
  simp only [hread, bind, Except.bind, pure, Except.pure]
  exact congrArg
    (fun head => (.ok (.piece (.opening (.rule head)) rest) : Except Fault Reading)) hbare

/-- What a declaration is read as, which the text behind its statement tells. -/
def declarationReading (decl : Declaration) (trailing : Text) : Text → Reading
  | ';' :: rest =>
    .piece (.leaf (.declaration { decl with after := trailing, span := {} }) true) rest
  | stop =>
    .piece (.leaf (.declaration { decl with after := [], span := {} }) false) (trailing ++ stop)

theorem readStatement_of_reads {decl : Declaration} {trailing : Text} (tail : Text)
    (hreads : decl.Reads trailing tail.head?) (hopen : ∀ rest, tail ≠ '{' :: rest) :
    readStatement decl.before (decl.text ++ trailing ++ tail) =
      .ok (declarationReading decl trailing tail) := by
  have hread : Statement.read (decl.text ++ trailing ++ tail) = .ok ⟨decl.text, trailing, tail⟩ :=
    Statement.read_eq_ok_iff.mpr ⟨rfl, hreads.statement⟩
  obtain ⟨left, right, hbetween, hleft, hright⟩ := hreads.between
  obtain ⟨htrim, htrail, hdrop, htake, hstart⟩ :=
    cut_of_declarationReads hreads.prop hreads.tight hbetween hleft hright hreads.value
  unfold readStatement
  simp only [hread, hdrop, htrim, htrail, htake, hstart, bind, Except.bind, pure, Except.pure]
  split
  · rw [declarationReading, hbetween]
  · rename_i hsemicolon
    rw [declarationReading.eq_2 _ _ _ hsemicolon, hbetween]

theorem readStatement_closed {decl : Declaration} {rest : Text} (hspan : decl.span = {})
    (hreads : decl.Reads decl.after (some ';')) :
    readStatement decl.before (decl.text ++ decl.after ++ ';' :: rest) =
      .ok (.piece (.leaf (.declaration decl) true) rest) := by
  rw [readStatement_of_reads (';' :: rest) hreads (by simp), declarationReading, ← hspan]

theorem readStatement_unclosed {decl : Declaration} {rest trailing : Text} {stop : Option Char}
    (hspan : decl.span = {}) (hafter : decl.after = []) (hcloses : Closes rest trailing stop)
    (hreads : decl.Reads trailing stop) :
    readStatement decl.before (decl.text ++ rest) =
      .ok (.piece (.leaf (.declaration decl) false) rest) := by
  obtain ⟨tail, rfl, hstop, hend⟩ := hcloses
  have hopen := ne_cons_of_closes hstop hend (c := '{') (by decide)
  have hsemicolon := ne_cons_of_closes hstop hend (c := ';') (by decide)
  rw [← List.append_assoc, readStatement_of_reads tail (hstop ▸ hreads) hopen,
    declarationReading.eq_2 _ _ _ hsemicolon, ← hafter, ← hspan]

/-! ### The piece that a text starts with -/

theorem read_append_cons {before : Text} {c : Char} (tail : Text) (hbefore : before.IsFiller)
    (hc : isFiller c = false) :
    (before ++ c :: tail).takeWhile isFiller = before ∧
      (before ++ c :: tail).dropWhile isFiller = c :: tail :=
  Text.takeWhile_append_of_startsOff hbefore (Text.startsOff_cons.mpr hc)

theorem read_append_brace {before : Text} (hbefore : before.IsFiller) (rest : Text) :
    read (before ++ '}' :: rest) = .ok (.piece (.closing before) rest) := by
  obtain ⟨htake, hdrop⟩ := read_append_cons (c := '}') rest hbefore (by decide)
  unfold read
  simp only [htake, hdrop]

theorem read_append_comment {before : Text} (hbefore : before.IsFiller) (here : Text) :
    read (before ++ '/' :: '*' :: here) = readComment before here := by
  obtain ⟨htake, hdrop⟩ := read_append_cons (c := '/') ('*' :: here) hbefore (by decide)
  unfold read
  simp only [htake, hdrop]

theorem read_append_at {before : Text} (hbefore : before.IsFiller) (here : Text) :
    read (before ++ '@' :: here) = readAtRule before here := by
  obtain ⟨htake, hdrop⟩ := read_append_cons (c := '@') here hbefore (by decide)
  unfold read
  simp only [htake, hdrop]

theorem read_of_opensStatement {before here : Text} (hbefore : before.IsFiller)
    (hopens : opensStatement here = true) :
    read (before ++ here) = readStatement before here := by
  have hoff : StartsOff isFiller here := by
    rcases here with _ | ⟨c, here⟩
    · exact Text.startsOff_nil _
    · simp only [opensStatement, Bool.and_eq_true, Bool.not_eq_true'] at hopens
      exact Text.startsOff_cons.mpr hopens.1.1.1
  obtain ⟨htake, hdrop⟩ := Text.takeWhile_append_of_startsOff hbefore hoff
  unfold read
  simp only [htake, hdrop]
  split
  · simp [opensStatement] at hopens
  · simp [opensStatement] at hopens
  · simp [opensStatement] at hopens
  · simp [opensStatement] at hopens
  · rfl

/-- Where neither a block nor a comment nor an at-rule shows, a statement starts. -/
theorem opensStatement_dropWhile {source : Text} (hempty : source.dropWhile isFiller ≠ [])
    (hclosing : ∀ rest, source.dropWhile isFiller ≠ '}' :: rest)
    (hcomment : ∀ rest, source.dropWhile isFiller ≠ '/' :: '*' :: rest)
    (hat : ∀ rest, source.dropWhile isFiller ≠ '@' :: rest) :
    opensStatement (source.dropWhile isFiller) = true := by
  have hoff := Text.startsOff_dropWhile isFiller source
  rcases hhere : source.dropWhile isFiller with _ | ⟨c, tail⟩
  · exact absurd hhere hempty
  · have hc : isFiller c = false := Text.startsOff_cons.mp (hhere ▸ hoff)
    have hslash : ¬ (c = '/' ∧ tail.head? = some '*') := by
      rintro ⟨rfl, hstar⟩
      rcases tail with _ | ⟨d, tail⟩
      · cases hstar
      · cases hstar
        exact hcomment tail hhere
    have hbrace : c ≠ '}' := by
      rintro rfl
      exact hclosing tail hhere
    have hsign : c ≠ '@' := by
      rintro rfl
      exact hat tail hhere
    simpa [opensStatement, hc, hbrace, hsign] using Decidable.not_and_iff_not_or_not.mp hslash

theorem reads_of_read {source rest : Text} {piece : Piece}
    (h : read source = .ok (.piece piece rest)) : piece.Reads rest := by
  have hbefore : Text.IsFiller (source.takeWhile isFiller) := fun _ hc => Text.mem_takeWhile hc
  unfold read at h
  simp only at h
  split at h
  · cases h
  · cases h
    exact hbefore
  · obtain ⟨text, rfl, -, hfree⟩ := readComment_eq_ok_iff.mp h
    exact ⟨rfl, rfl, hbefore, hfree⟩
  · exact reads_of_readAtRule hbefore h
  · rename_i hempty hclosing hcomment hat
    exact reads_of_readStatement hbefore
      (opensStatement_dropWhile hempty hclosing hcomment hat) h

theorem read_of_reads {piece : Piece} {rest : Text} (h : piece.Reads rest) :
    read (piece.print ++ rest) = .ok (.piece piece rest) := by
  match piece, h with
  | closing after, hafter =>
    simpa [print] using read_append_brace hafter rest
  | opening (.rule head), ⟨hbare, hreads⟩ =>
    have hopens : opensStatement (head.selector ++ head.raws.between ++ '{' :: rest) = true := by
      rw [opensStatement_append_brace]
      exact hreads.opens
    simpa [print, Heading.before, Heading.print] using
      (read_of_opensStatement hreads.before hopens).trans (readStatement_opening hbare hreads)
  | opening (.atRule head), ⟨hbare, hreads⟩ =>
    simpa [print, Heading.before, Heading.print, AtRule.print] using
      (read_append_at hreads.before _).trans (readAtRule_opening rest hbare hreads)
  | leaf (.comment note) closed, ⟨hspan, hclosed, hreads⟩ =>
    have hread : readComment note.before (note.text ++ '*' :: '/' :: rest) =
        .ok (.piece (.leaf (.comment note) closed) rest) :=
      readComment_eq_ok_iff.mpr ⟨note.text, by rw [hclosed, ← hspan], rfl, hreads.text⟩
    simpa [print, Node.before, Node.body, hclosed] using
      (read_append_comment hreads.before _).trans hread
  | leaf (.atLine head) true, ⟨hbare, hreads⟩ =>
    simpa [print, Node.before, Node.body, AtRule.print] using
      (read_append_at hreads.before _).trans (readAtRule_closed rest hbare hreads)
  | leaf (.atLine head) false, ⟨hbare, hbetween, trailing, stop, hcloses, hreads⟩ =>
    simpa [print, Node.before, Node.body, AtRule.print, hbetween] using
      (read_append_at hreads.before _).trans (readAtRule_unclosed hbare hbetween hcloses hreads)
  | leaf (.declaration decl) true, ⟨hspan, hreads⟩ =>
    have hopens : opensStatement (decl.text ++ decl.after ++ ';' :: rest) = true := by
      rw [List.append_assoc, opensStatement_append hreads.colon_mem]
      exact hreads.opens
    simpa [print, Node.before, Node.body, Declaration.text] using
      (read_of_opensStatement hreads.before hopens).trans (readStatement_closed hspan hreads)
  | leaf (.declaration decl) false, ⟨hspan, hafter, trailing, stop, hcloses, hreads⟩ =>
    have hopens : opensStatement (decl.text ++ rest) = true := by
      rw [opensStatement_append hreads.colon_mem]
      exact hreads.opens
    simpa [print, Node.before, Node.body, Declaration.text, hafter] using
      (read_of_opensStatement hreads.before hopens).trans
        (readStatement_unclosed hspan hafter hcloses hreads)

/-- **A text starts with exactly the pieces that have their shape there.** -/
theorem read_eq_piece_iff {source rest : Text} {piece : Piece} :
    read source = .ok (.piece piece rest) ↔ piece.print ++ rest = source ∧ piece.Reads rest := by
  constructor
  · intro h
    exact ⟨print_of_read h, reads_of_read h⟩
  · rintro ⟨rfl, hreads⟩
    exact read_of_reads hreads

theorem read_eq_finished_iff {source after : Text} :
    read source = .ok (.finished after) ↔ source = after ∧ after.IsFiller := by
  constructor
  · intro h
    have hwhole := List.takeWhile_append_dropWhile (p := isFiller) (l := source)
    unfold read at h
    simp only at h
    split at h
    · rename_i hhere
      cases h
      rw [hhere, List.append_nil] at hwhole
      exact ⟨hwhole.symm, fun _ hc => Text.mem_takeWhile hc⟩
    · cases h
    · unfold readComment at h
      split at h <;> cases h
    · unfold readAtRule at h
      simp only [bind, Except.bind, pure, Except.pure, throw, throwThe, MonadExceptOf.throw] at h
      repeat' split at h
      all_goals cases h
    · unfold readStatement at h
      simp only [bind, Except.bind, pure, Except.pure, throw, throwThe, MonadExceptOf.throw] at h
      repeat' split at h
      all_goals cases h
  · rintro ⟨rfl, hfiller⟩
    obtain ⟨htake, hdrop⟩ :=
      Text.takeWhile_append_of_startsOff hfiller (Text.startsOff_nil isFiller)
    rw [List.append_nil] at htake hdrop
    unfold read
    simp only [htake, hdrop]

/-- What closes a leaf is read as the end of the text or of a block. -/
theorem read_of_closes {source trailing : Text} {stop : Option Char}
    (hcloses : Closes source trailing stop) (hblank : trailing.IsBlank) :
    (source = trailing ∧ stop = none ∧ read source = .ok (.finished trailing)) ∨
      (stop = some '}' ∧ ∃ rest, source = trailing ++ '}' :: rest ∧
        read source = .ok (.piece (.closing trailing) rest)) := by
  obtain ⟨tail, rfl, rfl, hend⟩ := hcloses
  rcases tail with _ | ⟨c, rest⟩
  · rw [List.append_nil]
    exact Or.inl ⟨rfl, rfl, read_eq_finished_iff.mpr ⟨rfl, hblank.isFiller⟩⟩
  · rcases hend with hend | hend
    · cases hend
    · cases hend
      exact Or.inr ⟨rfl, rest, rfl, read_append_brace hblank.isFiller rest⟩

end Piece

end EmScale
