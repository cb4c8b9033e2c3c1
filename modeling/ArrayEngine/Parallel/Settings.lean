import ArrayEngine.Platform
import ArrayEngine.Size
import ArrayEngine.Text.Listing

/-!
# How many workers a computation gets

`Settings` bound the number of workers from above, by a thread ceiling, and ask for a least number
of elements per worker, so that small inputs stay on one thread. Both can be overridden by texts
from the environment, which are ignored if they are no positive number.
-/

namespace ArrayEngine.Parallel

/-- The environment variable that overrides the thread ceiling. -/
def threadsVariable : String := "NDEXEC_NUM_THREADS"

/-- The environment variable that overrides the least number of elements per worker. -/
def elementsVariable : String := "NDEXEC_MIN_ELEMENTS_PER_THREAD"

/-- The least number of elements per worker if none is given. -/
def defaultMinElements : Nat := 4096

/-- Bounds on the number of workers. -/
structure Settings where
  /-- The most threads to use; all that the machine has if it is missing. -/
  maxThreads : Option Nat := none
  /-- The least number of elements that a worker is worth. -/
  minElements : Nat := defaultMinElements
  deriving DecidableEq, Repr

/-- The character separates words, by the Unicode property of white space. -/
def isBlank (c : Char) : Bool :=
  let n := c.toNat
  (9 ≤ n && n ≤ 13) || n == 0x20 || n == 0x85 || n == 0xa0 || n == 0x1680 ||
    (0x2000 ≤ n && n ≤ 0x200a) || n == 0x2028 || n == 0x2029 || n == 0x202f || n == 0x205f ||
    n == 0x3000

/-- The text without blanks at its ends. -/
def trim (text : List Char) : List Char :=
  ((text.dropWhile isBlank).reverse.dropWhile isBlank).reverse

/-- The value of a decimal digit. -/
def digit? (c : Char) : Option Nat :=
  if c.isDigit then some (c.toNat - '0'.toNat) else none

/-- The number that a list of decimal digits denotes, if it is a size. -/
def readDigits? : List Char → Option Nat
  | [] => none
  | digits => do
      let n ← digits.foldlM (fun n c ↦ do pure (10 * n + (← digit? c))) 0
      if n < Size.limit then some n else none

/-- The positive number that an override denotes. There may be blanks around it and one plus sign
before it. -/
def readOverride? (text : String) : Option Nat :=
  let number :=
    match trim text.toList with
    | '+' :: digits => readDigits? digits
    | digits => readDigits? digits
  number.filter (0 < ·)

namespace Settings

/-- The settings with the given bounds, each of which may be missing. -/
def ofOverrides (maxThreads minElements : Option Nat) : Settings :=
  { maxThreads, minElements := minElements.getD defaultMinElements }

/-- The settings that the texts of the two environment variables ask for. -/
def ofEnvironment (threads elements : Option String) : Settings :=
  ofOverrides (threads.bind readOverride?) (elements.bind readOverride?)

/-- The settings that always use one worker. -/
def singleThreaded : Settings :=
  { maxThreads := some 1 }

/-- The most threads that are used on a machine: those asked for, but at least one, and no more than
the machine runs at once. -/
def ceiling (settings : Settings) (platform : Platform) : Nat :=
  match settings.maxThreads with
  | some threads => Nat.max 1 (Nat.min threads platform.concurrency)
  | none => platform.concurrency

/-- The number of workers for a number of elements: enough for the work, within the ceiling. -/
def budget (settings : Settings) (platform : Platform) (total : Nat) : Nat :=
  let least := Nat.max 1 settings.minElements
  let wanted := Nat.max 1 ((total + (least - 1)) / least)
  Nat.max 1 (Nat.min (settings.ceiling platform) wanted)

/-- The settings as messages show them. -/
def describe (settings : Settings) : String :=
  Text.record "ParallelismConfig"
    [("max_threads", Text.optional settings.maxThreads),
     ("min_elements_per_thread", toString settings.minElements)]

end Settings

end ArrayEngine.Parallel
