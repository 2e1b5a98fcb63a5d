import WiseOrder.Foundation.Json
import Mathlib.Data.List.Induction
import Mathlib.Data.List.TakeWhile

/-! A reader of JSON that goes through a text once, a character at a time, with the
open containers on a stack. It tells its failures apart: a text that is no JSON, a
whole number of more digits than are converted, and containers nested deeper than
the stack allows. A surrogate on its own is read as the replacement character. -/
namespace Json.Scanner

structure Limits where
  digits : Nat
  depth : Nat

inductive Failure where
  | malformed
  | digits
  | depth
  deriving DecidableEq

inductive Constant where
  | null
  | true
  | false
  | nan
  | infinity
  | minusInfinity

def Constant.value : Constant → Json
  | .null => .null
  | .true => .bool Bool.true
  | .false => .bool Bool.false
  | .nan => .float .nan
  | .infinity => .float .infinity
  | .minusInfinity => .float .minusInfinity

/-- How far a number has been read. -/
inductive NumberPart where
  | minus
  | zero
  | whole
  | point
  | fraction
  | exponent
  | sign
  | power
  deriving DecidableEq

/-- An open container: its contents, the latest first, and the key that waits for its value. -/
inductive Frame where
  | arr (items : List Json)
  | obj (fields : List (String × Json)) (key : Option String)

/-- What is being read. The contents of a string and of a number are kept with the latest first. -/
inductive Next where
  | value (mayEnd : Bool)
  | key (mayEnd : Bool)
  | colon (key : String)
  | comma
  | string (isKey : Bool) (units : List Nat)
  | escape (isKey : Bool) (units : List Nat)
  | hex (isKey : Bool) (units : List Nat) (code owed : Nat)
  | constant (owed : List Char) (which : Constant)
  | number (part : NumberPart) (text : List Char)

inductive State where
  | open (stack : List Frame) (next : Next)
  | done (v : Json)

def start : State := .open [] (.value false)

def loneUnit (u : Nat) : Char := if 0xD800 ≤ u ∧ u ≤ 0xDFFF then Char.ofNat 0xFFFD else Char.ofNat u

/-- The characters of code units, pairs of surrogates being one. -/
def chars : List Nat → List Char
  | [] => []
  | [u] => [loneUnit u]
  | u :: v :: rest =>
      if 0xD800 ≤ u ∧ u ≤ 0xDBFF ∧ 0xDC00 ≤ v ∧ v ≤ 0xDFFF then
        Char.ofNat (0x10000 + (u - 0xD800) * 0x400 + (v - 0xDC00)) :: chars rest
      else loneUnit u :: chars (v :: rest)

def continueNumber (part : NumberPart) (c : Char) : Option NumberPart :=
  match part with
  | .minus => if c = '0' then some .zero else if c.isDigit then some .whole else none
  | .zero => if c = '.' then some .point else if isExp c then some .exponent else none
  | .whole =>
      if c.isDigit then some .whole else if c = '.' then some .point
        else if isExp c then some .exponent else none
  | .point => if c.isDigit then some .fraction else none
  | .fraction => if c.isDigit then some .fraction else if isExp c then some .exponent else none
  | .exponent => if c.isDigit then some .power else if c = '+' || c = '-' then some .sign else none
  | .sign | .power => if c.isDigit then some .power else none

def wholeNumber (limits : Limits) (text : List Char) : Except Failure Json :=
  if (text.filter Char.isDigit).length > limits.digits then .error .digits
    else .ok (.int (integerValue text))

/-- The number that ends here. One that breaks off is converted as far as it is whole before the
text is found malformed. -/
def endNumber (limits : Limits) (part : NumberPart) (text : List Char) : Except Failure Json :=
  match part with
  | .minus => .error .malformed
  | .zero | .whole => wholeNumber limits text
  | .fraction | .power => .ok (.float (floatValue text))
  | .point | .exponent | .sign =>
      if part = .point || !text.contains '.' then
        (wholeNumber limits (text.takeWhile fun c => c = '-' || c.isDigit)).bind fun _ =>
          .error .malformed
      else .error .malformed

/-- A value is complete. -/
def complete (stack : List Frame) (v : Json) : State :=
  match stack with
  | [] => .done v
  | .arr items :: rest => .open (.arr (v :: items) :: rest) .comma
  | .obj fields key :: rest => .open (.obj ((key.getD "", v) :: fields) none :: rest) .comma

def closeArray : List Frame → Except Failure State
  | .arr items :: rest => .ok (complete rest (.arr items.reverse))
  | _ => .error .malformed

def closeObject : List Frame → Except Failure State
  | .obj fields _ :: rest => .ok (complete rest (.obj (dict fields.reverse)))
  | _ => .error .malformed

/-- A further element of the innermost container. -/
def further : List Frame → Except Failure State
  | .arr items :: rest => .ok (.open (.arr items :: rest) (.value false))
  | .obj fields key :: rest => .ok (.open (.obj fields key :: rest) (.key false))
  | [] => .error .malformed

/-- After a value. -/
def resume : State → Char → Except Failure State
  | .done v, c => if isBlank c then .ok (.done v) else .error .malformed
  | .open stack next, c =>
      if isBlank c then .ok (.open stack next)
      else if c = ',' then further stack
      else if c = ']' then closeArray stack
      else if c = '}' then closeObject stack
      else .error .malformed

def enter (limits : Limits) (stack : List Frame) (frame : Frame) (next : Next) :
    Except Failure State :=
  if stack.length < limits.depth then .ok (.open (frame :: stack) next) else .error .depth

/-- What a character begins that opens no container. -/
def opening (c : Char) : Option Next :=
  if c = '"' then some (.string false [])
  else if c = 'n' then some (.constant ['u', 'l', 'l'] .null)
  else if c = 't' then some (.constant ['r', 'u', 'e'] .true)
  else if c = 'f' then some (.constant ['a', 'l', 's', 'e'] .false)
  else if c = 'N' then some (.constant ['a', 'N'] .nan)
  else if c = 'I' then some (.constant ['n', 'f', 'i', 'n', 'i', 't', 'y'] .infinity)
  else if c = '-' then some (.number .minus ['-'])
  else if c = '0' then some (.number .zero ['0'])
  else if c.isDigit then some (.number .whole [c])
  else none

def beginValue (limits : Limits) (stack : List Frame) (c : Char) : Except Failure State :=
  if c = '{' then enter limits stack (.obj [] none) (.key true)
  else if c = '[' then enter limits stack (.arr []) (.value true)
  else match opening c with
    | some next => .ok (.open stack next)
    | none => .error .malformed

def stringChar (stack : List Frame) (isKey : Bool) (units : List Nat) (c : Char) :
    Except Failure State :=
  if c = '"' then
    let text := String.ofList (chars units.reverse)
    if isKey then .ok (.open stack (.colon text)) else .ok (complete stack (.str text))
  else if c = '\\' then .ok (.open stack (.escape isKey units))
  else if c.toNat < 32 then .error .malformed
  else .ok (.open stack (.string isKey (c.toNat :: units)))

def escapeChar (stack : List Frame) (isKey : Bool) (units : List Nat) (c : Char) :
    Except Failure State :=
  if c = 'u' then .ok (.open stack (.hex isKey units 0 4))
  else match unescape c with
    | some unit => .ok (.open stack (.string isKey (unit :: units)))
    | none => .error .malformed

def hexChar (stack : List Frame) (isKey : Bool) (units : List Nat) (code owed : Nat) (c : Char) :
    Except Failure State :=
  match hexValue c with
  | none => .error .malformed
  | some digit =>
      if owed ≤ 1 then .ok (.open stack (.string isKey ((code * 16 + digit) :: units)))
      else .ok (.open stack (.hex isKey units (code * 16 + digit) (owed - 1)))

def constantChar (stack : List Frame) (owed : List Char) (which : Constant) (c : Char) :
    Except Failure State :=
  match owed with
  | [] => .error .malformed
  | [o] => if c = o then .ok (complete stack which.value) else .error .malformed
  | o :: rest => if c = o then .ok (.open stack (.constant rest which)) else .error .malformed

def numberChar (limits : Limits) (stack : List Frame) (part : NumberPart) (text : List Char)
    (c : Char) : Except Failure State :=
  match continueNumber part c with
  | some part => .ok (.open stack (.number part (c :: text)))
  | none =>
      if part = .minus ∧ c = 'I' then
        .ok (.open stack (.constant ['n', 'f', 'i', 'n', 'i', 't', 'y'] .minusInfinity))
      else do
        let v ← endNumber limits part text.reverse
        resume (complete stack v) c

@[simp]
def step (limits : Limits) : State → Char → Except Failure State
  | .done v, c => resume (.done v) c
  | .open stack (.value mayEnd), c =>
      if isBlank c then .ok (.open stack (.value mayEnd))
      else if mayEnd && c = ']' then closeArray stack
      else beginValue limits stack c
  | .open stack (.key mayEnd), c =>
      if isBlank c then .ok (.open stack (.key mayEnd))
      else if mayEnd && c = '}' then closeObject stack
      else if c = '"' then .ok (.open stack (.string true []))
      else .error .malformed
  | .open stack (.colon key), c =>
      if isBlank c then .ok (.open stack (.colon key))
      else match c, stack with
        | ':', .obj fields _ :: rest => .ok (.open (.obj fields (some key) :: rest) (.value false))
        | _, _ => .error .malformed
  | .open stack .comma, c => resume (.open stack .comma) c
  | .open stack (.string isKey units), c => stringChar stack isKey units c
  | .open stack (.escape isKey units), c => escapeChar stack isKey units c
  | .open stack (.hex isKey units code owed), c => hexChar stack isKey units code owed c
  | .open stack (.constant owed which), c => constantChar stack owed which c
  | .open stack (.number part text), c => numberChar limits stack part text c

def scan (limits : Limits) : State → List Char → Except Failure State
  | st, [] => .ok st
  | st, c :: cs => do
      let st ← step limits st c
      scan limits st cs

/-- The value, where the text ends. -/
def finish (limits : Limits) : State → Except Failure Json
  | .done v => .ok v
  | .open stack (.number part text) => do
      let v ← endNumber limits part text.reverse
      match stack with
      | [] => .ok v
      | _ => .error .malformed
  | _ => .error .malformed

def decode (limits : Limits) (text : List Char) : Except Failure Json :=
  if text.head? = some (Char.ofNat 0xFEFF) then .error .malformed
  else do
    let st ← scan limits start text
    finish limits st

/-- The text of a value that is neither too deep nor has a number that is too long. -/
def encode (limits : Limits) (v : Json) : Except Failure String :=
  if limits.depth < nesting v then .error .depth
  else if limits.digits < longest v then .error .digits
  else .ok (dumps v)

/-- The value is what some reader finds in the text. -/
def Spells (text : String) (v : Json) : Prop := ∃ limits, decode limits text.toList = .ok v

/-- A list of numbers, cut off by a limit. -/
example : (match decode ⟨3, 9⟩ "[1, -20, 300, 4000".toList with
    | .error e => some e
    | .ok _ => none) = some .digits := by decide

/-! ### The outermost value -/

variable {limits : Limits} {st st' : State} {c : Char} {v : Json}

theorem scan_append (st : State) (xs ys : List Char) :
    scan limits st (xs ++ ys) = scan limits st xs >>= fun st => scan limits st ys := by
  induction xs generalizing st with
  | nil => rfl
  | cons c cs ih =>
      simp only [List.cons_append, scan]
      cases step limits st c with
      | error e => rfl
      | ok st => exact ih st

def isObject : Json → Bool
  | .obj _ => true
  | _ => false

/-- The outermost value is an object. -/
def rooted : State → Bool
  | .done v => isObject v
  | .open stack _ => match stack.getLast? with
      | some (.obj ..) => true
      | _ => false

/-- No value has begun. -/
def Fresh (st : State) : Prop := ∃ mayEnd, st = .open [] (.value mayEnd)

/-- A step keeps the outermost value. -/
def Keeps (st : State) (result : Except Failure State) : Prop :=
  ∀ st', result = .ok st' → rooted st' = rooted st ∧ ¬ Fresh st'

theorem keeps_error {e : Failure} : Keeps st (.error e) := fun _ same => nomatch same

theorem rooted_cons (frame : Frame) (stack : List Frame) (next next' : Next) (deep : stack ≠ []) :
    rooted (.open (frame :: stack) next) = rooted (.open stack next') := by
  simp [rooted, List.getLast?_cons, List.getLast?_eq_some_getLast deep]

theorem rooted_obj (fields fields' : List (String × Json)) (key key' : Option String)
    (rest : List Frame) (next next' : Next) : rooted (.open (.obj fields key :: rest) next) =
      rooted (.open (.obj fields' key' :: rest) next') := by
  cases rest <;> simp [rooted, List.getLast?_cons]

/-- A value is complete that is no object, or is one inside of something. -/
theorem rooted_complete (stack : List Frame) (v : Json) (next : Next)
    (inner : stack = [] → isObject v = false) :
    rooted (complete stack v) = rooted (.open stack next) ∧ ¬ Fresh (complete stack v) := by
  cases stack with
  | nil => exact ⟨by simpa [complete, rooted] using inner rfl, by simp [Fresh, complete]⟩
  | cons frame rest =>
      cases rest <;> cases frame <;> simp [complete, rooted, Fresh, List.getLast?_cons]

theorem keeps_closeArray {stack : List Frame} (next : Next) :
    Keeps (.open stack next) (closeArray stack) := by
  cases stack with
  | nil => exact keeps_error
  | cons frame rest =>
      cases frame with
      | obj fields key => exact keeps_error
      | arr items =>
          rintro st' same
          cases same
          obtain ⟨root, fresh⟩ := rooted_complete rest (.arr items.reverse) next fun _ => rfl
          refine ⟨root.trans ?_, fresh⟩
          cases rest with
          | nil => rfl
          | cons f rest => exact (rooted_cons _ _ _ _ (by simp)).symm

theorem keeps_closeObject {stack : List Frame} (next : Next) :
    Keeps (.open stack next) (closeObject stack) := by
  cases stack with
  | nil => exact keeps_error
  | cons frame rest =>
      cases frame with
      | arr items => exact keeps_error
      | obj fields key =>
          rintro st' same
          cases same
          cases rest with
          | nil => exact ⟨rfl, by simp [Fresh, complete]⟩
          | cons f rest =>
              obtain ⟨root, fresh⟩ :=
                rooted_complete (f :: rest) (.obj (dict fields.reverse)) next (by simp)
              exact ⟨root.trans (rooted_cons _ _ _ _ (by simp)).symm, fresh⟩

theorem keeps_further {stack : List Frame} (next : Next) :
    Keeps (.open stack next) (further stack) := by
  cases stack with
  | nil => exact keeps_error
  | cons frame rest =>
      cases frame <;>
      · rintro st' same
        cases same
        exact ⟨rfl, by simp [Fresh]⟩

/-- After a complete value, the outermost one stays. -/
theorem keeps_resume (fresh : ¬ Fresh st) : Keeps st (resume st c) := by
  cases st with
  | done v =>
      intro st' same
      simp only [resume] at same
      split at same
      · cases same
        exact ⟨rfl, fresh⟩
      · cases same
  | «open» stack next =>
      simp only [resume]
      split
      · intro st' same
        cases same
        exact ⟨rfl, fresh⟩
      · split
        · exact keeps_further next
        · split
          · exact keeps_closeArray next
          · split
            · exact keeps_closeObject next
            · exact keeps_error

theorem opening_fresh {next : Next} (opens : opening c = some next) :
    ∀ mayEnd, next ≠ .value mayEnd := by
  unfold opening at opens
  split_ifs at opens <;> cases opens <;> simp

theorem rooted_enter {stack : List Frame} {frame : Frame} {next : Next}
    (entered : enter limits stack frame next = .ok st') : st' = .open (frame :: stack) next := by
  unfold enter at entered
  split at entered
  · exact (Except.ok.inj entered).symm
  · exact nomatch entered

/-- A value that begins inside of another. -/
theorem keeps_begin {stack : List Frame} (next : Next) (deep : stack ≠ []) :
    Keeps (.open stack next) (beginValue limits stack c) := by
  intro st' began
  unfold beginValue at began
  split at began
  · cases rooted_enter began
    exact ⟨rooted_cons _ _ _ _ deep, by simp [Fresh]⟩
  · split at began
    · cases rooted_enter began
      exact ⟨rooted_cons _ _ _ _ deep, by simp [Fresh]⟩
    · split at began
      · cases began
        exact ⟨rfl, by simp [Fresh, deep]⟩
      · cases began

/-- The outermost value begins. -/
theorem rooted_begin (began : beginValue limits [] c = .ok st') :
    (rooted st' = true ↔ c = '{') ∧ ¬ Fresh st' := by
  unfold beginValue at began
  split at began
  · cases rooted_enter began
    exact ⟨by simp [rooted, *], by simp [Fresh]⟩
  · split at began
    · cases rooted_enter began
      exact ⟨by simp [rooted, *], by simp [Fresh]⟩
    · split at began
      · cases began
        exact ⟨by simp [rooted, *], by simpa [Fresh] using opening_fresh ‹_›⟩
      · cases began

theorem keeps_open {stack : List Frame} {next next' : Next}
    (other : ∀ mayEnd, next' ≠ .value mayEnd) :
    Keeps (.open stack next) (.ok (.open stack next')) := by
  intro st' same
  cases same
  exact ⟨rfl, by simpa [Fresh] using fun _ => other⟩

theorem keeps_complete {stack : List Frame} (next : Next) (plain : isObject v = false) :
    Keeps (.open stack next) (.ok (complete stack v)) := by
  intro st' same
  cases same
  exact rooted_complete _ _ next fun _ => plain

theorem endNumber_plain {part : NumberPart} {text : List Char}
    (ends : endNumber limits part text = .ok v) : isObject v = false := by
  have whole (t : List Char) (read : wholeNumber limits t = .ok v) : isObject v = false := by
    unfold wholeNumber at read
    split at read <;> cases read
    rfl
  cases part with
  | minus => cases ends
  | zero | whole => exact whole _ ends
  | fraction | power =>
      cases ends
      rfl
  | point | exponent | sign =>
      simp only [endNumber] at ends
      split at ends
      · cases read : wholeNumber limits (text.takeWhile fun c => c = '-' || c.isDigit)
          <;> rw [read] at ends <;> cases ends
      · cases ends

theorem keeps_step (begun : ¬ Fresh st) : Keeps st (step limits st c) := by
  cases st with
  | done v => exact keeps_resume begun
  | «open» stack next =>
      cases next with
      | value mayEnd =>
          have deep : stack ≠ [] := fun top => begun ⟨mayEnd, by rw [top]⟩
          simp only [step]
          split
          · intro st' same
            cases same
            exact ⟨rfl, begun⟩
          · split
            · exact keeps_closeArray _
            · exact keeps_begin _ deep
      | key mayEnd =>
          simp only [step]
          split
          · exact keeps_open (by simp)
          · split
            · exact keeps_closeObject _
            · split
              · exact keeps_open (by simp)
              · exact keeps_error
      | colon key =>
          simp only [step]
          split
          · exact keeps_open (by simp)
          · split
            · intro st' same
              cases same
              exact ⟨rooted_obj .., by simp [Fresh]⟩
            · exact keeps_error
      | comma => exact keeps_resume begun
      | string isKey units =>
          simp only [step, stringChar]
          split
          · split
            · exact keeps_open (by simp)
            · exact keeps_complete _ rfl
          · split
            · exact keeps_open (by simp)
            · split
              · exact keeps_error
              · exact keeps_open (by simp)
      | escape isKey units =>
          simp only [step, escapeChar]
          split
          · exact keeps_open (by simp)
          · split
            · exact keeps_open (by simp)
            · exact keeps_error
      | hex isKey units code owed =>
          simp only [step, hexChar]
          split
          · exact keeps_error
          · split <;> exact keeps_open (by simp)
      | constant owed which =>
          have plain : isObject which.value = false := by cases which <;> rfl
          simp only [step, constantChar]
          split
          · exact keeps_error
          · split
            · exact keeps_complete _ plain
            · exact keeps_error
          · split
            · exact keeps_open (by simp)
            · exact keeps_error
      | number part text =>
          simp only [step, numberChar]
          split
          · exact keeps_open (by simp)
          · split
            · exact keeps_open (by simp)
            · cases ends : endNumber limits part text.reverse with
              | error e => exact keeps_error
              | ok v =>
                  obtain ⟨root, fresh⟩ := rooted_complete stack v (.number part text) fun _ =>
                    endNumber_plain ends
                  intro st' same
                  obtain ⟨root', fresh'⟩ := keeps_resume fresh st' same
                  exact ⟨root'.trans root, fresh'⟩

theorem scan_keeps {cs : List Char} (begun : ¬ Fresh st) (scanned : scan limits st cs = .ok st') :
    rooted st' = rooted st := by
  induction cs generalizing st with
  | nil =>
      cases scanned
      rfl
  | cons c cs ih =>
      simp only [scan] at scanned
      cases stepped : step limits st c with
      | error e =>
          rw [stepped] at scanned
          cases scanned
      | ok next =>
          rw [stepped] at scanned
          obtain ⟨root, fresh⟩ := keeps_step begun next stepped
          exact (ih fresh scanned).trans root

/-! ### Where an object ends -/

/-- A container is closed by its bracket alone. -/
theorem resume_closes {fields : List (String × Json)}
    (closed : resume st c = .ok (.done (.obj fields))) : c = '}' ∨ isBlank c ∧
    st = .done (.obj fields) := by
  cases st with
  | done v =>
      simp only [resume] at closed
      split at closed
      · cases closed
        exact .inr ⟨‹_›, rfl⟩
      · cases closed
  | «open» stack next =>
      simp only [resume] at closed
      split at closed
      · cases closed
      · split at closed
        · cases stack with
          | nil => cases closed
          | cons frame rest => cases frame <;> cases closed
        · split at closed
          · cases stack with
            | nil => cases closed
            | cons frame rest =>
                cases frame with
                | obj => cases closed
                | arr items =>
                    cases rest with
                    | nil => cases closed
                    | cons f rest => cases f <;> cases closed
          · split at closed
            · exact .inl ‹_›
            · cases closed

theorem complete_object {stack : List Frame} {fields : List (String × Json)}
    (closed : complete stack v = .done (.obj fields)) : isObject v = true := by
  cases stack with
  | nil =>
      cases closed
      rfl
  | cons frame rest => cases frame <;> cases closed

theorem step_closes {fields : List (String × Json)}
    (closed : step limits st c = .ok (.done (.obj fields))) : c = '}' ∨ isBlank c ∧
    st = .done (.obj fields) := by
  cases st with
  | done v => exact resume_closes closed
  | «open» stack next =>
      cases next with
      | comma => exact resume_closes closed
      | value mayEnd =>
          simp only [step] at closed
          split at closed
          · cases closed
          · split at closed
            · cases stack with
              | nil => cases closed
              | cons frame rest =>
                  cases frame with
                  | obj => cases closed
                  | arr items =>
                      exact absurd (complete_object (Except.ok.inj closed)) (by simp [isObject])
            · unfold beginValue at closed
              split at closed
              · cases rooted_enter closed
              · split at closed
                · cases rooted_enter closed
                · split at closed <;> cases closed
      | key mayEnd =>
          simp only [step] at closed
          split at closed
          · cases closed
          · split at closed
            · exact .inl (by simp_all)
            · split at closed <;> cases closed
      | colon key =>
          simp only [step] at closed
          split at closed
          · cases closed
          · split at closed <;> cases closed
      | string isKey units =>
          simp only [step, stringChar] at closed
          split at closed
          · split at closed
            · cases closed
            · exact absurd (complete_object (Except.ok.inj closed)) (by simp [isObject])
          · split at closed
            · cases closed
            · split at closed <;> cases closed
      | escape isKey units =>
          simp only [step, escapeChar] at closed
          split at closed
          · cases closed
          · split at closed <;> cases closed
      | hex isKey units code owed =>
          simp only [step, hexChar] at closed
          split at closed
          · cases closed
          · split at closed <;> cases closed
      | constant owed which =>
          simp only [step, constantChar] at closed
          split at closed
          · cases closed
          · split at closed
            · exact absurd (complete_object (Except.ok.inj closed))
                (by cases which <;> simp [isObject, Constant.value])
            · cases closed
          · split at closed <;> cases closed
      | number part text =>
          simp only [step, numberChar] at closed
          split at closed
          · cases closed
          · split at closed
            · cases closed
            · cases ends : endNumber limits part text.reverse with
              | error e =>
                  rw [ends] at closed
                  cases closed
              | ok v =>
                  rw [ends] at closed
                  rcases resume_closes closed with brace | ⟨-, same⟩
                  · exact .inl brace
                  · have object := complete_object same
                    simp [endNumber_plain ends] at object

theorem scan_cons {cs : List Char} (scanned : scan limits st (c :: cs) = .ok st') :
    ∃ next, step limits st c = .ok next ∧ scan limits next cs = .ok st' := by
  simp only [scan] at scanned
  cases stepped : step limits st c with
  | error e =>
      rw [stepped] at scanned
      cases scanned
  | ok next =>
      rw [stepped] at scanned
      exact ⟨next, rfl, scanned⟩

/-- A text that ends in an object has its closing brace as the last character that is not blank. -/
theorem scan_closes {cs : List Char} {fields : List (String × Json)}
    (other : st ≠ .done (.obj fields)) (scanned : scan limits st cs = .ok (.done (.obj fields))) :
    ∃ inner trail, cs = inner ++ '}' :: trail ∧ (∀ c ∈ trail, isBlank c = true) ∧
      scan limits st (inner ++ ['}']) = .ok (.done (.obj fields)) := by
  induction cs using List.reverseRecOn with
  | nil => exact absurd (Except.ok.inj scanned) other
  | append_singleton cs c ih =>
      have whole := scanned
      rw [scan_append] at scanned
      cases earlier : scan limits st cs with
      | error e =>
          rw [earlier] at scanned
          cases scanned
      | ok middle =>
          rw [earlier] at scanned
          have last : step limits middle c = .ok (.done (.obj fields)) := by
            obtain ⟨next, stepped, same⟩ := scan_cons scanned
            exact stepped.trans same
          rcases step_closes last with rfl | ⟨blank, rfl⟩
          · exact ⟨cs, [], rfl, by simp, whole⟩
          · obtain ⟨inner, trail, rfl, blanks, scanned⟩ := ih earlier
            refine ⟨inner, trail ++ [c], by simp, fun d member => ?_, scanned⟩
            rcases List.mem_append.mp member with there | here
            · exact blanks d there
            · exact List.mem_singleton.mp here ▸ blank

theorem scan_blanks {lead : List Char} (blanks : ∀ c ∈ lead, isBlank c = true) (cs : List Char) :
    scan limits start (lead ++ cs) = scan limits start cs := by
  induction lead with
  | nil => rfl
  | cons c lead ih =>
      have blank := blanks c List.mem_cons_self
      have rest := ih fun d member => blanks d (List.mem_cons_of_mem _ member)
      simpa [scan, start, step, blank, bind, Except.bind] using rest

theorem finish_object {fields : List (String × Json)}
    (ended : finish limits st = .ok (.obj fields)) : st = .done (.obj fields) := by
  cases st with
  | done v =>
      cases ended
      rfl
  | «open» stack next =>
      cases next with
      | number part text =>
          simp only [finish] at ended
          cases ends : endNumber limits part text.reverse with
          | error e =>
              rw [ends] at ended
              cases ended
          | ok v =>
              rw [ends] at ended
              cases stack with
              | nil =>
                  cases ended
                  exact absurd (endNumber_plain ends) (by simp [isObject])
              | cons frame rest => cases ended
      | _ => cases ended

/-- What begins an object is a brace. -/
theorem scan_opens {cs : List Char} {fields : List (String × Json)} (visible : isBlank c = false)
    (scanned : scan limits start (c :: cs) = .ok (.done (.obj fields))) : c = '{' := by
  obtain ⟨next, stepped, rest⟩ := scan_cons scanned
  have began : beginValue limits [] c = .ok next := by simpa [start, step, visible] using stepped
  obtain ⟨opens, begun⟩ := rooted_begin began
  exact opens.mp ((scan_keeps begun rest).symm)

/-- The text of an object is a braced text between blanks, which is itself a text of the object. -/
theorem decode_object {text : List Char} {fields : List (String × Json)}
    (read : decode limits text = .ok (.obj fields)) : ∃ lead inner trail, text = lead ++
    ('{' :: (inner ++ ['}'])) ++ trail ∧ (∀ c ∈ lead, isBlank c = true) ∧
      (∀ c ∈ trail, isBlank c = true) ∧ decode limits ('{' :: (inner ++ ['}'])) = .ok
      (.obj fields) := by
  unfold decode at read
  split at read
  · cases read
  · cases scanned : scan limits start text with
    | error e =>
        rw [scanned] at read
        cases read
    | ok st =>
        rw [scanned] at read
        obtain rfl := finish_object read
        have blanks (c) (member : c ∈ text.takeWhile isBlank) : isBlank c = true :=
          List.mem_takeWhile_imp member
        have parts : text.takeWhile isBlank ++ text.dropWhile isBlank = text :=
          List.takeWhile_append_dropWhile
        rw [← parts, scan_blanks blanks] at scanned
        obtain ⟨inner, trail, split, trailing, body⟩ := scan_closes (by simp [start]) scanned
        cases rest : text.dropWhile isBlank with
        | nil =>
            rw [rest] at split
            simp at split
        | cons c more =>
            have visible : isBlank c = false := by
              have := List.head?_dropWhile_not isBlank text
              simpa [rest] using this
            rw [rest] at scanned split
            cases scan_opens visible scanned
            cases inner with
            | nil => simp at split
            | cons d inner =>
                obtain ⟨rfl, same⟩ := List.cons.inj split
                refine ⟨text.takeWhile isBlank, inner, trail, ?_, blanks, trailing, ?_⟩
                · conv_lhs => rw [← parts, rest, same]
                  simp
                · have scanned : scan limits start ('{' :: (inner ++ ['}'])) =
                    .ok (.done (.obj fields)) := body
                  have brace : ¬ ('{' :: (inner ++ ['}'])).head? =
                    some (Char.ofNat 0xFEFF) := by simp
                  rw [decode, if_neg brace, scanned]
                  rfl

theorem scan_trail {trail : List Char} (blanks : ∀ c ∈ trail, isBlank c = true) (v : Json) :
    scan limits (.done v) trail = .ok (.done v) := by
  induction trail with
  | nil => rfl
  | cons c trail ih =>
      have rest := ih fun d member => blanks d (List.mem_cons_of_mem c member)
      simpa [scan, step, resume, blanks c List.mem_cons_self, bind, Except.bind] using rest

/-- Blanks around a braced text do not matter. -/
theorem decode_blanks {lead inner trail : List Char} {fields : List (String × Json)}
    (leading : ∀ c ∈ lead, isBlank c = true) (trailing : ∀ c ∈ trail, isBlank c = true)
    (read : decode limits ('{' :: inner) = .ok (.obj fields)) :
    decode limits (lead ++ ('{' :: inner) ++ trail) = .ok (.obj fields) := by
  have brace : ¬ ('{' :: inner).head? = some (Char.ofNat 0xFEFF) := by simp
  have lead_brace : ¬ (lead ++ ('{' :: inner) ++ trail).head? = some (Char.ofNat 0xFEFF) := by
    cases lead with
    | nil => simp
    | cons c lead =>
        have blank := leading c List.mem_cons_self
        rintro same
        cases Option.some.inj same
        cases blank
  rw [decode, if_neg brace] at read
  cases scanned : scan limits start ('{' :: inner) with
  | error e =>
      rw [scanned] at read
      cases read
  | ok st =>
      rw [scanned] at read
      obtain rfl := finish_object read
      rw [decode, if_neg lead_brace, List.append_assoc, scan_blanks leading, scan_append, scanned]
      exact congrArg (· >>= finish limits) (scan_trail trailing _)

/-! ### Other limits -/

/-- What was read under some limits is read under others, or fails at one of these. -/
def Unless (wide narrow : Except Failure α) : Prop :=
  ∀ a, wide = .ok a → narrow = .ok a ∨ narrow = .error .digits ∨ narrow = .error .depth

theorem unless_refl (r : Except Failure α) : Unless r r := fun _ same => .inl same

theorem unless_bind {wide narrow : Except Failure α} {k k' : α → Except Failure β}
    (first : Unless wide narrow) (rest : ∀ a, Unless (k a) (k' a)) :
    Unless (wide >>= k) (narrow >>= k') := by
  intro b same
  cases wide with
  | error e => cases same
  | ok a =>
      rcases first a rfl with read | digits | depth
      · rw [read]
        exact rest a b same
      · rw [digits]
        exact .inr (.inl rfl)
      · rw [depth]
        exact .inr (.inr rfl)

variable {wide : Limits}

theorem unless_wholeNumber (text : List Char) :
    Unless (wholeNumber wide text) (wholeNumber limits text) := by
  intro v read
  unfold wholeNumber at read ⊢
  split at read
  · cases read
  · split
    · exact .inr (.inl rfl)
    · exact .inl read

theorem unless_endNumber (part : NumberPart) (text : List Char) :
    Unless (endNumber wide part text) (endNumber limits part text) := by
  intro v read
  cases part with
  | minus => cases read
  | zero | whole => exact unless_wholeNumber _ v read
  | fraction | power => exact .inl read
  | point | exponent | sign =>
      simp only [endNumber] at read
      split at read
      · cases whole : wholeNumber wide (text.takeWhile fun c => c = '-' || c.isDigit)
          <;> rw [whole] at read <;> cases read
      · cases read

theorem unless_enter (stack : List Frame) (frame : Frame) (next : Next) :
    Unless (enter wide stack frame next) (enter limits stack frame next) := by
  intro st' entered
  unfold enter at entered ⊢
  split at entered
  · split
    · exact .inl entered
    · exact .inr (.inr rfl)
  · cases entered

theorem unless_begin (stack : List Frame) (c : Char) :
    Unless (beginValue wide stack c) (beginValue limits stack c) := by
  unfold beginValue
  split
  · exact unless_enter _ _ _
  · split
    · exact unless_enter _ _ _
    · exact unless_refl _

theorem unless_step (st : State) (c : Char) : Unless (step wide st c) (step limits st c) := by
  cases st with
  | done v => exact unless_refl _
  | «open» stack next =>
      cases next with
      | value mayEnd =>
          simp only [step]
          split
          · exact unless_refl _
          · split
            · exact unless_refl _
            · exact unless_begin _ _
      | number part text =>
          simp only [step, numberChar]
          split
          · exact unless_refl _
          · split
            · exact unless_refl _
            · exact unless_bind (unless_endNumber part _) fun v => unless_refl _
      | _ => exact unless_refl _

theorem unless_scan (st : State) (cs : List Char) :
    Unless (scan wide st cs) (scan limits st cs) := by
  induction cs generalizing st with
  | nil => exact unless_refl _
  | cons c cs ih => exact unless_bind (unless_step st c) ih

theorem unless_finish (st : State) : Unless (finish wide st) (finish limits st) := by
  cases st with
  | done v => exact unless_refl _
  | «open» stack next =>
      cases next with
      | number part text => exact unless_bind (unless_endNumber part _) fun v => unless_refl _
      | _ => exact unless_refl _

theorem unless_decode (text : List Char) : Unless (decode wide text) (decode limits text) := by
  unfold decode
  split
  · exact unless_refl _
  · exact unless_bind (unless_scan start text) unless_finish

/-- Readers do not disagree. -/
theorem spells_unique {text : String} {v w : Json} (left : Spells text v) (right : Spells text w) :
    v = w := by
  obtain ⟨wide, read⟩ := left
  obtain ⟨narrow, again⟩ := right
  rcases @unless_decode narrow wide text.toList v read with same | digits | depth
  · exact Except.ok.inj (same.symm.trans again)
  · rw [digits] at again
    contradiction
  · rw [depth] at again
    contradiction

end Json.Scanner
