/-
  EmScale/Proofs/Options/Decode.lean
  ==================================
  **Options are decoded one by one.**

  A member of an object sets the option that its key names, if its value has the right shape,
  and no other one.  So where no key comes twice an option depends on its own member alone
  (`OptionKey.get_ofJson`).

  Which shape is right is said for each option in `OptionKey.Decodes`, by relations that know
  nothing of the decoders.  An entry is a pattern if it is a body between slashes with flags
  behind, and then it stands for what the compiler makes of the body, whatever compiler that
  is; any other text is an entry as it is (`Matcher.IsWritten`).
-/
import EmScale.Options.Decode
import Mathlib

namespace EmScale

/-! ### Entries -/

namespace Matcher

/-- The written form of a pattern: a body between slashes, and flags. -/
structure IsSlashed (raw body flags : Text) : Prop where
  eq_append : raw = '/' :: (body ++ '/' :: flags)
  body_ne_nil : body ≠ []
  mem_letters : ∀ c ∈ flags, c ∈ "gimsuy".toList

/-- What a text stands for as an entry. -/
inductive IsWritten (compiler : PatternCompiler) (raw : Text) : Matcher → Prop
  | pattern {body flags : Text} {isMatch : Text → Bool} (hslashed : IsSlashed raw body flags)
    (hcompiles : compiler ⟨'i' ∈ flags, 'm' ∈ flags, 's' ∈ flags⟩ body = some isMatch) :
    IsWritten compiler raw (.pattern ⟨body, isMatch⟩)
  | text (hplain : ∀ body flags, ¬ IsSlashed raw body flags) : IsWritten compiler raw (.text raw)

theorem IsSlashed.not_mem_flags {raw body flags : Text} (h : IsSlashed raw body flags) :
    '/' ∉ flags := by
  intro hslash
  exact absurd (h.mem_letters '/' hslash) (by decide)

/-- What stands behind the last slash of a text. -/
theorem takeWhile_reverse_append {body flags : Text} (h : '/' ∉ flags) :
    ((body ++ '/' :: flags).reverse.takeWhile (· != '/')).reverse = flags := by
  have hflags : ∀ c ∈ flags.reverse, (c != '/') = true := by
    intro c hc
    have hne : c ≠ '/' := by
      rintro rfl
      exact h (List.mem_reverse.mp hc)
    simpa using hne
  have hreverse : (body ++ '/' :: flags).reverse = flags.reverse ++ '/' :: body.reverse := by simp
  rw [hreverse, List.takeWhile_append_of_pos hflags]
  simp

theorem slashed?_append {body flags : Text} (h : '/' ∉ flags) :
    slashed? ('/' :: (body ++ '/' :: flags)) =
      if body ≠ [] ∧ ∀ c ∈ flags, c ∈ flagLetters then some (body, flags) else none := by
  have hbody : (body ++ '/' :: flags).take ((body ++ '/' :: flags).length - flags.length - 1) =
      body := by
    have hlength : (body ++ '/' :: flags).length - flags.length - 1 = body.length := by
      rw [List.length_append, List.length_cons]
      omega
    rw [hlength, List.take_left]
  simp only [slashed?, takeWhile_reverse_append h, hbody]
  simp

theorem slashed?_eq_some_iff {raw body flags : Text} :
    slashed? raw = some (body, flags) ↔ IsSlashed raw body flags := by
  constructor
  · intro h
    obtain ⟨t, rfl⟩ : ∃ t, raw = '/' :: t := by
      unfold slashed? at h
      split at h
      · exact ⟨_, rfl⟩
      · cases h
    have hslash : '/' ∈ t.reverse := by
      by_contra hnone
      simp_all [slashed?]
    -- The first slash of the reversed text is the last one of the text.
    obtain ⟨flags', body', hreverse, hflags'⟩ := List.eq_append_cons_of_mem hslash
    obtain rfl : t = body'.reverse ++ '/' :: flags'.reverse := by
      simpa using congrArg List.reverse hreverse
    rw [slashed?_append (by simpa using hflags')] at h
    split at h
    · rename_i hshape
      cases h
      exact ⟨rfl, hshape.1, hshape.2⟩
    · cases h
  · rintro ⟨rfl, hbody, hletters⟩
    have hslash := IsSlashed.not_mem_flags ⟨rfl, hbody, hletters⟩
    rw [slashed?_append hslash, if_pos ⟨hbody, hletters⟩]

/-- **An entry is read as it is written.** -/
theorem parse?_eq_some_iff {compiler : PatternCompiler} {raw : Text} {m : Matcher} :
    parse? compiler raw = some m ↔ IsWritten compiler raw m := by
  unfold parse?
  rcases hraw : slashed? raw with _ | ⟨body, flags⟩
  · have hplain : ∀ body flags, ¬ IsSlashed raw body flags := by
      intro body flags hslashed
      rw [slashed?_eq_some_iff.mpr hslashed] at hraw
      cases hraw
    constructor
    · intro h
      cases h
      exact .text hplain
    · rintro (⟨hslashed, -⟩ | -)
      · exact absurd hslashed (hplain _ _)
      · rfl
  · have hslashed := slashed?_eq_some_iff.mp hraw
    simp only [Pattern.compile?, Option.map_map, Option.map_eq_some_iff]
    constructor
    · rintro ⟨isMatch, hcompiles, rfl⟩
      exact .pattern hslashed (by simpa [PatternFlags.ofLetters] using hcompiles)
    · rintro (⟨hslashed', hcompiles⟩ | hplain)
      · rw [slashed?_eq_some_iff.mpr hslashed'] at hraw
        cases hraw
        exact ⟨_, by simpa [PatternFlags.ofLetters] using hcompiles, rfl⟩
      · exact absurd hslashed (hplain _ _)

end Matcher

/-! ### Shapes of values -/

namespace Json

/-- An object has each key once. -/
def HasDistinctKeys : Json → Prop
  | object members => (members.map Prod.fst).Nodup
  | _ => True

/-- A number.  An integer stands for the floating point number next to it. -/
inductive IsFloat : Json → Float → Prop
  | integer (n : Int) : IsFloat (number (.integer n)) (Float.ofInt n)
  | real (x : Float) : IsFloat (number (.real x)) x

/-- A count of decimal places: an integer of 32 bits. -/
def IsPrecision (j : Json) (n : Nat) : Prop :=
  j = number (.integer n) ∧ n < 2 ^ 32

/-- A text or a pattern, as entries are written. -/
def IsMatcher (compiler : PatternCompiler) (j : Json) (m : Matcher) : Prop :=
  ∃ raw, j = string raw ∧ Matcher.IsWritten compiler raw m

/-- An array, each of whose items stands for an element of the list. -/
def IsListOf {α : Type} (item : Json → α → Prop) (j : Json) (list : List α) : Prop :=
  ∃ items, j = array items ∧ List.Forall₂ item items list

/-- Null, which stands for none, or another value. -/
def IsOptional {α : Type} (value : Json → α → Prop) : Json → Option α → Prop
  | null, found => found = none
  | j, found => ∃ x, value j x ∧ found = some x

/-- A member that gives a unit its divisor. -/
def IsUnit (member : Text × Json) (unit : SourceUnit) : Prop :=
  member.1 = unit.name ∧ IsFloat member.2 unit.divisor

/-- Members that give units their divisors.  Of two with one name the later one counts. -/
inductive AreUnits : List (Text × Json) → List SourceUnit → Prop
  | nil : AreUnits [] []
  | cons {member : Text × Json} {unit : SourceUnit} {members : List (Text × Json)}
    {units : List SourceUnit} (hunit : IsUnit member unit)
    (hlast : member.1 ∉ members.map Prod.fst) (hrest : AreUnits members units) :
    AreUnits (member :: members) (unit :: units)
  | again {member : Text × Json} {unit : SourceUnit} {members : List (Text × Json)}
    {units : List SourceUnit} (hunit : IsUnit member unit)
    (hlater : member.1 ∈ members.map Prod.fst) (hrest : AreUnits members units) :
    AreUnits (member :: members) units

/-- A number for all units, or an object with a number for each. -/
inductive IsRootValue : Json → RootValue → Prop
  | uniform {j : Json} {x : Float} (hfloat : IsFloat j x) : IsRootValue j (.uniform x)
  | perUnit {members : List (Text × Json)} {divisors : Divisors}
    (hunits : AreUnits members divisors.units) :
    IsRootValue (object members) (.perUnit divisors)

theorem toBool?_eq_some_iff {j : Json} {b : Bool} : j.toBool? = some b ↔ j = bool b := by
  cases j <;> simp [toBool?]

theorem toText?_eq_some_iff {j : Json} {t : Text} : j.toText? = some t ↔ j = string t := by
  cases j <;> simp [toText?]

theorem toFloat?_eq_some_iff {j : Json} {x : Float} : j.toFloat? = some x ↔ j.IsFloat x := by
  constructor
  · intro h
    cases j with
    | number value =>
      cases h
      cases value with
      | integer n => exact .integer n
      | real x => exact .real x
    | _ => cases h
  · rintro (n | x) <;> rfl

theorem toPrecision?_eq_some_iff {j : Json} {n : Nat} :
    j.toPrecision? = some n ↔ j.IsPrecision n := by
  cases j with
  | number value =>
    cases value with
    | integer m =>
      simp only [toPrecision?, IsPrecision]
      constructor
      · intro h
        split at h
        · rename_i hbounds
          cases h
          exact ⟨by rw [Int.toNat_of_nonneg hbounds.1], hbounds.2⟩
        · cases h
      · rintro ⟨hvalue, hn⟩
        cases hvalue
        exact if_pos ⟨Int.natCast_nonneg n, hn⟩
    | real x => simp [toPrecision?, IsPrecision]
  | _ => simp [toPrecision?, IsPrecision]

theorem toMatcher?_eq_some_iff {compiler : PatternCompiler} {j : Json} {m : Matcher} :
    j.toMatcher? compiler = some m ↔ j.IsMatcher compiler m := by
  cases j <;> simp [toMatcher?, toText?, IsMatcher, Matcher.parse?_eq_some_iff]

theorem toExclude?_eq_some_iff {compiler : PatternCompiler} {j : Json} {exclude : Exclude} :
    j.toExclude? compiler = some exclude ↔ ∃ m, j.IsMatcher compiler m ∧ exclude = .matcher m := by
  simp [toExclude?, toMatcher?_eq_some_iff, @eq_comm _ _ exclude]

theorem mapM_eq_some_iff {α β : Type} {f : α → Option β} {xs : List α} {ys : List β} :
    xs.mapM f = some ys ↔ List.Forall₂ (fun x y => f x = some y) xs ys := by
  induction xs generalizing ys with
  | nil => cases ys <;> simp
  | cons x xs ih =>
    rw [List.mapM_cons]
    cases ys <;> simp [Option.bind_eq_some_iff, ih]

theorem toList?_eq_some_iff {α : Type} {item? : Json → Option α} {item : Json → α → Prop}
    (hitem : ∀ {j x}, item? j = some x ↔ item j x) {j : Json} {list : List α} :
    j.toList? item? = some list ↔ j.IsListOf item list := by
  cases j <;> simp [toList?, IsListOf, mapM_eq_some_iff, hitem]

theorem toOptional?_eq_some_iff {α : Type} {value? : Json → Option α} {value : Json → α → Prop}
    (hvalue : ∀ {j x}, value? j = some x ↔ value j x) {j : Json} {found : Option α} :
    j.toOptional? value? = some found ↔ j.IsOptional value found := by
  cases j <;> simp [toOptional?, IsOptional, hvalue, eq_comm]

theorem name_of_forall₂_isUnit {members : List (Text × Json)} {units : List SourceUnit}
    (h : List.Forall₂ IsUnit members units) :
    units.map SourceUnit.name = members.map Prod.fst := by
  induction h with
  | nil => rfl
  | cons hunit _ ih => rw [List.map_cons, List.map_cons, ih, hunit.1]

theorem areUnits_iff {members : List (Text × Json)} {kept : List SourceUnit} :
    AreUnits members kept ↔ ∃ units, List.Forall₂ IsUnit members units ∧ keepLast units = kept := by
  constructor
  · intro h
    induction h with
    | nil => exact ⟨[], .nil, rfl⟩
    | @cons member unit members kept hunit hlast hrest ih =>
      obtain ⟨units, hunits, rfl⟩ := ih
      rw [← name_of_forall₂_isUnit hunits, hunit.1] at hlast
      exact ⟨unit :: units, .cons hunit hunits, if_neg hlast⟩
    | @again member unit members kept hunit hlater hrest ih =>
      obtain ⟨units, hunits, rfl⟩ := ih
      rw [← name_of_forall₂_isUnit hunits, hunit.1] at hlater
      exact ⟨unit :: units, .cons hunit hunits, if_pos hlater⟩
  · rintro ⟨units, hunits, rfl⟩
    induction hunits with
    | nil => exact .nil
    | @cons member unit members units hunit hunits ih =>
      unfold keepLast
      rw [name_of_forall₂_isUnit hunits, ← hunit.1]
      split
      · exact .again hunit ‹_› ih
      · exact .cons hunit ‹_› ih

theorem toRootValue?_eq_some_iff {j : Json} {root : RootValue} :
    j.toRootValue? = some root ↔ j.IsRootValue root := by
  have hunit : ∀ (member : Text × Json) (unit : SourceUnit),
      (∃ x, member.2.toFloat? = some x ∧ some ⟨member.1, x⟩ = some unit) ↔
        IsUnit member unit := by
    rintro ⟨key, value⟩ ⟨name, divisor⟩
    simp [IsUnit, toFloat?_eq_some_iff, and_comm]
  constructor
  · intro h
    cases j with
    | number n =>
      cases h
      exact .uniform (toFloat?_eq_some_iff.mp rfl)
    | object members =>
      simp only [toRootValue?, Option.bind_eq_bind, Option.bind_eq_some_iff, mapM_eq_some_iff,
        Option.pure_def, hunit] at h
      obtain ⟨units, hunits, hroot⟩ := h
      cases hroot
      exact .perUnit (areUnits_iff.mpr ⟨units, hunits, rfl⟩)
    | _ => cases h
  · rintro (hfloat | ⟨hunits⟩)
    · rcases hfloat with n | x <;> rfl
    · obtain ⟨units, hforall, hkept⟩ := areUnits_iff.mp hunits
      simp only [toRootValue?, Option.bind_eq_bind, Option.bind_eq_some_iff, mapM_eq_some_iff,
        Option.pure_def, hunit]
      exact ⟨units, hforall, by simp [Divisors.ofList, hkept]⟩

end Json

/-! ### Keys and their options -/

namespace OptionKey

/-- The values that an option may have. -/
def Setting : OptionKey → Type
  | rootValue => RootValue
  | unitPrecision => Nat
  | selectorBlackList => List Matcher
  | propWhiteList | propBlackList => List Text
  | replace | mediaQuery => Bool
  | minPixelValue => Float
  | exclude => Option Exclude
  | ignoreIdentifier => Option Text

def get : (key : OptionKey) → Options → key.Setting
  | rootValue, options => options.rootValue
  | unitPrecision, options => options.unitPrecision
  | selectorBlackList, options => options.selectorBlackList
  | propWhiteList, options => options.propWhiteList
  | propBlackList, options => options.propBlackList
  | replace, options => options.replace
  | mediaQuery, options => options.mediaQuery
  | minPixelValue, options => options.minPixelValue
  | exclude, options => options.exclude
  | ignoreIdentifier, options => options.ignoreIdentifier

def put : (key : OptionKey) → key.Setting → Options → Options
  | rootValue, setting, options => { options with rootValue := setting }
  | unitPrecision, setting, options => { options with unitPrecision := setting }
  | selectorBlackList, setting, options => { options with selectorBlackList := setting }
  | propWhiteList, setting, options => { options with propWhiteList := setting }
  | propBlackList, setting, options => { options with propBlackList := setting }
  | replace, setting, options => { options with replace := setting }
  | mediaQuery, setting, options => { options with mediaQuery := setting }
  | minPixelValue, setting, options => { options with minPixelValue := setting }
  | exclude, setting, options => { options with exclude := setting }
  | ignoreIdentifier, setting, options => { options with ignoreIdentifier := setting }

section

variable (compiler : PatternCompiler)

/-- The value of an option that a JSON value stands for, if it has the right shape. -/
def decode? : (key : OptionKey) → Json → Option key.Setting
  | rootValue => Json.toRootValue?
  | unitPrecision => Json.toPrecision?
  | selectorBlackList => Json.toList? (Json.toMatcher? compiler)
  | propWhiteList | propBlackList => Json.toList? Json.toText?
  | replace | mediaQuery => Json.toBool?
  | minPixelValue => Json.toFloat?
  | exclude => Json.toOptional? (Json.toExclude? compiler)
  | ignoreIdentifier => Json.toOptional? Json.toText?

/-- The shape that is right for an option, and what a JSON value of it stands for. -/
def Decodes : (key : OptionKey) → Json → key.Setting → Prop
  | rootValue => Json.IsRootValue
  | unitPrecision => Json.IsPrecision
  | selectorBlackList => Json.IsListOf (Json.IsMatcher compiler)
  | propWhiteList | propBlackList => Json.IsListOf fun j t => j = .string t
  | replace | mediaQuery => fun j b => j = .bool b
  | minPixelValue => Json.IsFloat
  | exclude =>
    Json.IsOptional fun j exclude => ∃ m, j.IsMatcher compiler m ∧ exclude = .matcher m
  | ignoreIdentifier => Json.IsOptional fun j t => j = .string t

end

variable {compiler : PatternCompiler}

theorem decode?_eq_some_iff {key : OptionKey} {value : Json} {setting : key.Setting} :
    key.decode? compiler value = some setting ↔ key.Decodes compiler value setting := by
  cases key with
  | rootValue => exact Json.toRootValue?_eq_some_iff
  | unitPrecision => exact Json.toPrecision?_eq_some_iff
  | selectorBlackList => exact Json.toList?_eq_some_iff Json.toMatcher?_eq_some_iff
  | propWhiteList => exact Json.toList?_eq_some_iff Json.toText?_eq_some_iff
  | propBlackList => exact Json.toList?_eq_some_iff Json.toText?_eq_some_iff
  | replace => exact Json.toBool?_eq_some_iff
  | mediaQuery => exact Json.toBool?_eq_some_iff
  | minPixelValue => exact Json.toFloat?_eq_some_iff
  | exclude => exact Json.toOptional?_eq_some_iff Json.toExclude?_eq_some_iff
  | ignoreIdentifier => exact Json.toOptional?_eq_some_iff Json.toText?_eq_some_iff

/-! ### One option at a time -/

variable {key other : OptionKey}

theorem set?_eq (options : Options) (key : OptionKey) (value : Json) :
    options.set? compiler key value =
      (key.decode? compiler value).map fun setting => key.put setting options := by
  cases key <;> rfl

@[simp] theorem get_put (setting : key.Setting) (options : Options) :
    key.get (key.put setting options) = setting := by
  cases key <;> rfl

theorem get_put_of_ne (h : key ≠ other) (setting : other.Setting) (options : Options) :
    key.get (other.put setting options) = key.get options := by
  cases key <;> cases other <;> first | exact absurd rfl h | rfl

theorem ofName?_eq_some_iff {name : Text} : ofName? name = some key ↔ key.name = name := by
  constructor
  · intro h
    simpa using List.find?_some h
  · rintro rfl
    cases key <;> rfl

theorem name_injective (h : key.name = other.name) : key = other := by
  have hkey := ofName?_eq_some_iff.mpr h
  rw [ofName?_eq_some_iff.mpr rfl] at hkey
  exact (Option.some.inj hkey).symm

theorem get_assign (options : Options) (name : Text) (value : Json) :
    key.get (options.assign compiler (name, value)) =
      if key.name = name then (key.decode? compiler value).getD (key.get options)
      else key.get options := by
  unfold Options.assign
  dsimp only
  split
  · rename_i other hother
    rw [ofName?_eq_some_iff] at hother
    subst hother
    rw [set?_eq]
    by_cases hkey : key = other
    · subst hkey
      rw [if_pos rfl]
      cases key.decode? compiler value with
      | none => rfl
      | some setting => exact get_put setting options
    · rw [if_neg fun hname => hkey (name_injective hname)]
      cases other.decode? compiler value with
      | none => rfl
      | some setting => exact get_put_of_ne hkey setting options
  · rename_i hnone
    rw [if_neg fun hname => by simp [ofName?_eq_some_iff.mpr hname] at hnone]

theorem get_foldl_assign {members : List (Text × Json)} (h : (members.map Prod.fst).Nodup)
    (options : Options) :
    key.get (members.foldl (Options.assign compiler) options) =
      ((members.lookup key.name).bind (key.decode? compiler)).getD (key.get options) := by
  induction members generalizing options with
  | nil => rfl
  | cons member members ih =>
    rcases member with ⟨name, value⟩
    rw [List.map_cons, List.nodup_cons] at h
    obtain ⟨hfresh, hdistinct⟩ := h
    rw [List.foldl_cons, ih hdistinct, get_assign, List.lookup_cons]
    by_cases hname : key.name = name
    · subst hname
      -- The key comes once, so what its member sets stays as it is.
      have hnone : members.lookup key.name = none := by
        rw [List.lookup_eq_none_iff]
        intro member hmember
        have hne : key.name ≠ member.1 := by
          intro heq
          exact hfresh (List.mem_map.mpr ⟨member, hmember, heq.symm⟩)
        simpa using hne
      simp [hnone]
    · have hother : (key.name == name) = false := by simpa using hname
      rw [if_neg hname, hother]

/-- **An option is decoded from its own member**, and has its default without one of the right
    shape. -/
theorem get_ofJson {json : Json} (h : json.HasDistinctKeys) :
    key.get (Options.ofJson compiler json) =
      ((json.get? key.name).bind (key.decode? compiler)).getD (key.get {}) := by
  cases json with
  | object members => exact get_foldl_assign h {}
  | _ => rfl

theorem get_ofJson_of_decodes {json value : Json} (h : json.HasDistinctKeys)
    (hvalue : json.get? key.name = some value) {setting : key.Setting}
    (hdecodes : key.Decodes compiler value setting) :
    key.get (Options.ofJson compiler json) = setting := by
  rw [get_ofJson h, hvalue, Option.bind_some, decode?_eq_some_iff.mpr hdecodes]
  rfl

theorem get_ofJson_of_not_decodes {json value : Json} (h : json.HasDistinctKeys)
    (hvalue : json.get? key.name = some value)
    (hshape : ∀ setting, ¬ key.Decodes compiler value setting) :
    key.get (Options.ofJson compiler json) = key.get {} := by
  have hnone : key.decode? compiler value = none := by
    rw [Option.eq_none_iff_forall_ne_some]
    intro setting hdecode
    exact hshape setting (decode?_eq_some_iff.mp hdecode)
  rw [get_ofJson h, hvalue, Option.bind_some, hnone]
  rfl

end OptionKey

/-! ### Lists and maps -/

/-- The elements of a list or a map. -/
def Json.parts : Json → List Json
  | array items => items
  | object members => members.map Prod.snd
  | _ => []

namespace OptionKey

/-- What the elements of an option must be, if it takes a list or a map. -/
def Admits (compiler : PatternCompiler) : OptionKey → Json → Prop
  | rootValue, part => ∃ x, part.IsFloat x
  | selectorBlackList, part => ∃ m, part.IsMatcher compiler m
  | propWhiteList, part | propBlackList, part => ∃ t, part = .string t
  | _, _ => False

variable {compiler : PatternCompiler} {key : OptionKey}

/-- What is related to a whole list is so item by item. -/
theorem exists_of_forall₂ {α β : Type} {R : α → β → Prop} {xs : List α} {ys : List β}
    (h : List.Forall₂ R xs ys) : ∀ x ∈ xs, ∃ y, R x y := by
  have hboth : List.Forall₂ (fun x y => (∃ y, R x y) ∧ R x y) xs ys :=
    h.imp fun x y hxy => ⟨⟨y, hxy⟩, hxy⟩
  exact ((List.forall₂_and_left xs ys).mp hboth).1

theorem exists_of_isListOf {α : Type} {item : Json → α → Prop} {value : Json} {list : List α}
    (h : value.IsListOf item list) : ∀ part ∈ value.parts, ∃ x, item part x := by
  obtain ⟨items, rfl, hitems⟩ := h
  exact exists_of_forall₂ hitems

theorem parts_of_isOptional {α : Type} {item : Json → α → Prop} {value : Json}
    {found : Option α} (h : value.IsOptional item found)
    (hitem : ∀ {x}, item value x → value.parts = []) : value.parts = [] := by
  cases value with
  | null => rfl
  | _ =>
    obtain ⟨x, hx, -⟩ := h
    exact hitem hx

theorem parts_of_isFloat {value : Json} {x : Float} (h : value.IsFloat x) : value.parts = [] := by
  cases h <;> rfl

/-- **Lists and maps are taken whole.** -/
theorem admits_of_decodes {value : Json} {setting : key.Setting}
    (h : key.Decodes compiler value setting) : ∀ part ∈ value.parts, key.Admits compiler part := by
  cases key with
  | rootValue =>
    rcases h with hfloat | ⟨hunits⟩
    · rw [parts_of_isFloat hfloat]
      exact nofun
    · intro part hpart
      obtain ⟨member, hmember, rfl⟩ := List.mem_map.mp hpart
      obtain ⟨units, hforall, -⟩ := Json.areUnits_iff.mp hunits
      obtain ⟨unit, -, hnumber⟩ := exists_of_forall₂ hforall member hmember
      exact ⟨unit.divisor, hnumber⟩
  | selectorBlackList => exact exists_of_isListOf h
  | propWhiteList => exact exists_of_isListOf h
  | propBlackList => exact exists_of_isListOf h
  | unitPrecision =>
    obtain ⟨rfl, -⟩ := h
    exact nofun
  | replace =>
    cases h
    exact nofun
  | mediaQuery =>
    cases h
    exact nofun
  | minPixelValue =>
    rw [parts_of_isFloat h]
    exact nofun
  | exclude =>
    rw [parts_of_isOptional h (by rintro x ⟨m, ⟨raw, rfl, -⟩, -⟩; rfl)]
    exact nofun
  | ignoreIdentifier =>
    rw [parts_of_isOptional h (by rintro x rfl; rfl)]
    exact nofun

/-- **Options are decoded one by one**, whatever compiles their patterns.  An option is what the
    value of its key stands for, and the default if the key is missing or its value has the wrong
    shape; one bad element of a list or map is enough for that.  So two objects that agree in one
    key agree in its option, whatever else they hold.  What is no object gives the defaults. -/
theorem get_ofJson_of_hasDistinctKeys (compiler : PatternCompiler) (key : OptionKey) {json : Json}
    (h : json.HasDistinctKeys) :
    (∀ value, json.get? key.name = some value →
      (∀ setting, key.Decodes compiler value setting →
        key.get (Options.ofJson compiler json) = setting) ∧
      ((∀ setting, ¬ key.Decodes compiler value setting) →
        key.get (Options.ofJson compiler json) = key.get {}) ∧
      ((∃ part ∈ value.parts, ¬ key.Admits compiler part) →
        key.get (Options.ofJson compiler json) = key.get {})) ∧
    (json.get? key.name = none → key.get (Options.ofJson compiler json) = key.get {}) ∧
    (∀ other : Json, other.HasDistinctKeys → other.get? key.name = json.get? key.name →
      key.get (Options.ofJson compiler other) = key.get (Options.ofJson compiler json)) ∧
    ((∀ members, json ≠ .object members) → Options.ofJson compiler json = {}) := by
  refine ⟨?_, ?_, ?_, ?_⟩
  · intro value hvalue
    refine ⟨fun setting => get_ofJson_of_decodes h hvalue, get_ofJson_of_not_decodes h hvalue, ?_⟩
    rintro ⟨part, hpart, hbad⟩
    apply get_ofJson_of_not_decodes h hvalue
    intro setting hdecodes
    exact hbad (admits_of_decodes hdecodes part hpart)
  · intro hmissing
    rw [get_ofJson h, hmissing]
    rfl
  · intro other hother hsame
    rw [get_ofJson hother, get_ofJson h, hsame]
  · intro hobject
    cases json with
    | object members => exact absurd rfl (hobject members)
    | _ => rfl

/-- A compiler of expressions that are letters and nothing else. -/
def compileLetters : PatternCompiler := fun flags body =>
  if body.all Char.isAlpha && !flags.ignoreCase then some (Text.includes body) else none

/-- An object with a text and a pattern that compiles among its entries, a pattern that does not
    compile, a map with a bad number, and values of a right and a wrong shape. -/
theorem get_ofJson_of_hasDistinctKeys_mixed :
    let entries : Json := .array [.string ".a".toList, .string "/body/g".toList]
    let divisors : Json := .object [("px".toList, .number (.integer 50)),
      ("rpx".toList, .string "100".toList)]
    let json : Json := .object [("exclude".toList, .string "/(/".toList),
      ("minPixelValue".toList, .number (.integer 2)), ("replace".toList, .string "no".toList),
      ("rootValue".toList, divisors), ("selectorBlackList".toList, entries),
      ("unitPrecision".toList, .number (.integer 3))]
    let other : Json := .object [("unitPrecision".toList, .number (.integer 3)),
      ("unknown".toList, .null)]
    let options := Options.ofJson compileLetters json
    (json.HasDistinctKeys ∧ other.HasDistinctKeys) ∧
      options.selectorBlackList =
        [.text ".a".toList, .pattern ⟨"body".toList, Text.includes "body".toList⟩] ∧
      options.exclude = none ∧ options.rootValue = .uniform defaultRootValue ∧
      options.minPixelValue = Float.ofInt 2 ∧ options.replace = true ∧
      options.unitPrecision = 3 ∧ (Options.ofJson compileLetters other).unitPrecision = 3 := by
  intro entries divisors json other options
  have hjson : json.HasDistinctKeys := by
    change (["exclude".toList, "minPixelValue".toList, "replace".toList, "rootValue".toList,
      "selectorBlackList".toList, "unitPrecision".toList] : List Text).Nodup
    decide
  have hother : other.HasDistinctKeys := by
    change (["unitPrecision".toList, "unknown".toList] : List Text).Nodup
    decide
  refine ⟨⟨hjson, hother⟩, ?_, ?_, ?_, ?_, ?_, ?_⟩
  · obtain ⟨hfound, -⟩ := get_ofJson_of_hasDistinctKeys compileLetters .selectorBlackList hjson
    have htext : Matcher.IsWritten compileLetters ".a".toList (.text ".a".toList) :=
      .text fun body flags hslashed => by cases hslashed.eq_append
    have hslashed : Matcher.IsSlashed "/body/g".toList "body".toList ['g'] :=
      ⟨rfl, by decide, by simp⟩
    have hcompiles : compileLetters {} "body".toList = some (Text.includes "body".toList) :=
      if_pos (by decide)
    exact (hfound entries rfl).1 _
      ⟨_, rfl, .cons ⟨_, rfl, htext⟩ (.cons ⟨_, rfl, .pattern hslashed hcompiles⟩ .nil)⟩
  · obtain ⟨hfound, -⟩ := get_ofJson_of_hasDistinctKeys compileLetters .exclude hjson
    have hrefused : Matcher.parse? compileLetters "/(/".toList = none := by
      cbv
    refine (hfound _ rfl).2.1 ?_
    rintro setting ⟨exclude, ⟨m, ⟨raw, hraw, hwritten⟩, -⟩, -⟩
    cases hraw
    rw [Matcher.parse?_eq_some_iff.mpr hwritten] at hrefused
    cases hrefused
  · obtain ⟨hfound, -⟩ := get_ofJson_of_hasDistinctKeys compileLetters .rootValue hjson
    have hbad : ¬ rootValue.Admits compileLetters (.string "100".toList) := nofun
    exact (hfound divisors rfl).2.2 ⟨_, by simp [divisors, Json.parts], hbad⟩
  · obtain ⟨hfound, -⟩ := get_ofJson_of_hasDistinctKeys compileLetters .minPixelValue hjson
    exact (hfound _ rfl).1 _ (.integer 2)
  · obtain ⟨hfound, -⟩ := get_ofJson_of_hasDistinctKeys compileLetters .replace hjson
    exact (hfound _ rfl).2.1 nofun
  · obtain ⟨hfound, -, hsame, -⟩ :=
      get_ofJson_of_hasDistinctKeys compileLetters .unitPrecision hjson
    have hthree := (hfound _ rfl).1 (3 : Nat) ⟨rfl, by decide⟩
    exact ⟨hthree, (hsame other hother rfl).trans hthree⟩

end OptionKey

end EmScale
