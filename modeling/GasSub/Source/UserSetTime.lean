import GasSub.Source.Sensor

/-!
# The time dialog

`CheckTime` and `IsLeap` of `user_SetTime.c` on the `MY_DATE` of `DataStruct.h`.
-/
namespace GasSub.Source

/-- `MY_DATE`. -/
structure MyDate where
  year : INT32U
  mon : INT32U
  day : INT32U
  hour : INT32U
  min : INT32U
  sec : INT32U
  deriving DecidableEq, Repr

/-- `IsLeap`. -/
def isLeap (year : INT16U) : Bool :=
  if year % 400 = 0 then true
  else if year % 100 ≠ 0 ∧ year % 4 = 0 then true
  else false

/-- `dayOfMon` of `CheckTime`; the year is passed on in sixteen bits. -/
def dayOfMon (currentTime : MyDate) : INT16U :=
  let mon := currentTime.mon
  if mon = 1 ∨ mon = 3 ∨ mon = 5 ∨ mon = 7 ∨ mon = 8 ∨ mon = 10 ∨ mon = 12 then 31
  else if mon = 2 then if isLeap (currentTime.year.setWidth 16) then 29 else 28
  else 30

/-- `CheckTime`. -/
def checkTime (currentTime : MyDate) : Bool :=
  if 60 ≤ currentTime.sec ∨ 60 ≤ currentTime.min ∨ 24 ≤ currentTime.hour ∨ 12 < currentTime.mon ∨
      currentTime.year < 1990 ∨ 2100 < currentTime.year then false
  else if (dayOfMon currentTime).setWidth 32 < currentTime.day then false
  else true

end GasSub.Source
