import SchemaDiagram.Decimal.Basic

/-!
# Dates and times

The forms of dates and times: `1979-05-27`, `07:32:00.5`, and both with a `T` between them and the
offset from universal time behind, or none.
-/

namespace SchemaDiagram.Toml

def number? (t : Text) : Option Nat :=
  if t.all Text.isAsciiDigit && 2 ≤ t.length then some (Decimal.ofDigits t) else none

def daysInMonth (year month : Nat) : Nat :=
  if month = 2 then
    if year % 4 = 0 && (year % 100 ≠ 0 || year % 400 = 0) then 29 else 28
  else if [4, 6, 9, 11].contains month then 30 else 31

def isDate (t : Text) : Bool :=
  match t with
  | [y₁, y₂, y₃, y₄, '-', m₁, m₂, '-', d₁, d₂] =>
    match number? [y₁, y₂, y₃, y₄], number? [m₁, m₂], number? [d₁, d₂] with
    | some year, some month, some day =>
      1 ≤ month && month ≤ 12 && 1 ≤ day && day ≤ daysInMonth year month
    | _, _, _ => false
  | _ => false

def isHourAndMinute (t : Text) : Bool :=
  match t with
  | [h₁, h₂, ':', m₁, m₂] =>
    match number? [h₁, h₂], number? [m₁, m₂] with
    | some hour, some minute => hour ≤ 23 && minute ≤ 59
    | _, _ => false
  | _ => false

/-- Seconds go to 60, for a leap second, and can have a fraction. -/
def isSecond (t : Text) : Bool :=
  match t with
  | ':' :: s₁ :: s₂ :: fraction =>
    (number? [s₁, s₂]).any (· ≤ 60) &&
      match fraction with
      | [] => true
      | c :: digits => c = '.' && !digits.isEmpty && digits.all Text.isAsciiDigit
  | _ => false

def isTime (t : Text) : Bool := isHourAndMinute (t.take 5) && isSecond (t.drop 5)

def isSign (c : Char) : Bool := c = '+' || c = '-'

/-- A time and the offset from universal time, if there is one. -/
def isTimeWithOffset (t : Text) : Bool :=
  let time := t.takeWhile fun c => !(isSign c || c = 'Z' || c = 'z')
  let offset := t.drop time.length
  isTime time &&
    match offset with
    | [] => true
    | c :: rest => if isSign c then isHourAndMinute rest else rest.isEmpty

def isMoment (t : Text) : Bool :=
  isDate t || isTime t ||
    (isDate (t.take 10) && [['T'], ['t']].contains ((t.drop 10).take 1) &&
      isTimeWithOffset (t.drop 11))

end SchemaDiagram.Toml
