/-!
# RouterConfig — arguments of the command line

Arguments are options with a value, flags and words in their places. An option or a flag may stand
anywhere before the last place is filled; two hyphens alone, or a word in the last place of a form
that takes any number of words, end the options. Main results:

* `Arguments.read_escaped` — after two hyphens every argument is a word.
-/

namespace RouterConfig

/-- Why arguments make no request. -/
inductive Refusal where
  /-- They are not understood. -/
  | misuse
  /-- They ask for help only. -/
  | help
  deriving DecidableEq

/-- What arguments may look like. -/
structure ArgumentForm where
  /-- The names of the options with a value. -/
  options : List String
  /-- The names of the flags. -/
  flags : List String
  /-- The names of the flags that ask for help only, each with its letter. -/
  helpFlags : List (String × Char)
  /-- How many words there are places for. -/
  places : Nat
  /-- Whether further words may follow, of any number and any look. -/
  openEnd : Bool
  /-- Whether the first word and all that follows it are left for someone else. -/
  stopsAtWord : Bool

/-- What arguments say. -/
structure Arguments where
  options : List (String × String)
  flags : List String
  words : List String
  /-- Whether all further arguments are words. -/
  escaped : Bool
  deriving DecidableEq

namespace Arguments

/-- No arguments. -/
def empty : Arguments := ⟨[], [], [], false⟩

/-- The value of an option. -/
def option? (a : Arguments) (name : String) : Option String :=
  (a.options.find? fun entry => entry.1 = name).map (·.2)

/-- Whether a flag is there. -/
def has (a : Arguments) (flag : String) : Bool := a.flags.contains flag

/-- An option more, which must not come twice. -/
def withOption (a : Arguments) (name value : String) : Except Refusal Arguments :=
  if (a.option? name).isSome then .error .misuse
  else .ok { a with options := a.options ++ [(name, value)] }

/-- A flag more, which must not come twice. -/
def withFlag (a : Arguments) (name : String) : Except Refusal Arguments :=
  if a.has name then .error .misuse else .ok { a with flags := a.flags ++ [name] }

/-- A word more, where there is a place for it. -/
def withWord (a : Arguments) (form : ArgumentForm) (word : String) : Except Refusal Arguments :=
  -- Behind the last place the open end starts, where nothing is an option any more.
  if a.words.length < form.places then .ok { a with words := a.words ++ [word] }
  else if form.openEnd then .ok { a with words := a.words ++ [word], escaped := true }
  else .error .misuse

/-- How a single argument looks. -/
inductive Look where
  /-- Two hyphens alone. -/
  | escape
  /-- Two hyphens and a name, perhaps with a value behind an equals sign. -/
  | long (name : String) (value? : Option String)
  /-- One hyphen and more. -/
  | short (letters : List Char)
  | word
  deriving DecidableEq

/-- How an argument looks. -/
def look (argument : String) : Look :=
  match argument.toList with
  | ['-', '-'] => .escape
  | '-' :: '-' :: rest =>
    let name := String.ofList (rest.takeWhile (· ≠ '='))
    match rest.dropWhile (· ≠ '=') with
    | _ :: value => .long name (some (String.ofList value))
    | [] => .long name none
  | ['-'] => .word
  | '-' :: letters => .short letters
  | _ => .word

/-- Reads arguments, after those in `seen`. What comes second are those left for someone else. -/
def read (form : ArgumentForm) :
    List String → (seen : Arguments) → Except Refusal (Arguments × List String)
  | [], seen => .ok (seen, [])
  | argument :: rest, seen =>
    if seen.escaped then
      match seen.withWord form argument with
      | .ok seen => read form rest seen
      | .error refusal => .error refusal
    else
      match look argument with
      | .escape => read form rest { seen with escaped := true }
      | .short letters =>
        if form.helpFlags.any fun entry => letters.head? = some entry.2 then .error .help
        else .error .misuse
      -- What follows a word of the outer form is read by the form of the command.
      | .word =>
        if form.stopsAtWord then .ok (seen, argument :: rest)
        else
          match seen.withWord form argument with
          | .ok seen => read form rest seen
          | .error refusal => .error refusal
      | .long name (some value) =>
        if form.options.contains name then
          match seen.withOption name value with
          | .ok seen => read form rest seen
          | .error refusal => .error refusal
        else .error .misuse
      | .long name none =>
        if form.options.contains name then
          match rest with
          | [] => .error .misuse
          | value :: rest =>
            -- A value that looks like an option needs the equals sign.
            if look value = .word then
              match seen.withOption name value with
              | .ok seen => read form rest seen
              | .error refusal => .error refusal
            else .error .misuse
        else if form.flags.contains name then
          match seen.withFlag name with
          | .ok seen => read form rest seen
          | .error refusal => .error refusal
        else if form.helpFlags.any fun entry => entry.1 = name then .error .help
        else .error .misuse

theorem read_escaped {form : ArgumentForm} (hopen : form.openEnd = true) {arguments : List String}
    {seen : Arguments} (h : seen.escaped = true) :
    read form arguments seen = .ok ({ seen with words := seen.words ++ arguments }, []) := by
  induction arguments generalizing seen with
  | nil => simp [read]
  | cons argument rest ih =>
    simp only [read, h, if_true, withWord]
    by_cases hplace : seen.words.length < form.places
    · simp only [hplace, if_true]
      rw [ih rfl]
      simp
    · simp only [hplace, if_false, hopen, if_true]
      rw [ih rfl]
      simp

end Arguments

end RouterConfig
