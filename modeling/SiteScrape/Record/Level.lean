import SiteScrape.Definition.Basic
import SiteScrape.Record.UserInfo
import SiteScrape.Time.Moment

/-!
# Levels

A level is met when every condition it names is met; a condition that the
record says nothing about is not. The next level is the lowest above the
present one that is still open.
-/

namespace SiteScrape.LevelRequirement

def week : Int := 7 * Moment.day

/-- The account has existed long enough; nothing when the day it would have to
date from lies outside the calendar. -/
def meetsAge? (r : LevelRequirement) (u : UserInfo) (now : Int) : Option Bool :=
  match r.interval, u.joinTime with
  | none, _ => some true
  | some _, none => some false
  | some weeks, some joined =>
    (Moment.within? (now - weeks.toNat * week)).map fun latest => joined.toInt ≤ latest

/-- An amount reaches a size written as text. -/
def reachesSize (amount : Option UInt64) (size : Option String) : Bool :=
  match size with
  | none => true
  | some s => !(Double.ofInt (amount.getD 0).toNat < Filter.sizeIn s)

/-- A ratio that is negative, for infinite, reaches every other. -/
def reachesRatio (ratio required : Option Float) : Bool :=
  match required, ratio with
  | none, _ => true
  | some _, none => false
  | some least, some r => r < 0.0 || r ≥ least

/-- All conditions but the age are met. -/
def meetsAmounts (r : LevelRequirement) (u : UserInfo) : Bool :=
  reachesSize u.uploaded r.uploaded && reachesSize u.downloaded r.downloaded &&
  reachesRatio u.ratio r.ratio &&
  (match r.bonus with
    | some least => !(u.bonus.getD 0.0 < least)
    | none => true) &&
  (match r.uploads with
    | some least => least ≤ u.uploads.getD 0
    | none => true)

/-- Every condition is met at a moment. -/
def isMetAt? (r : LevelRequirement) (u : UserInfo) (now : Int) : Option Bool :=
  (meetsAge? r u now).map fun old => old && r.meetsAmounts u

/-- The requirements sorted by number; those of one number keep their order. -/
def sorted (rs : List LevelRequirement) : List LevelRequirement :=
  rs.mergeSort fun a b => a.id ≤ b.id

/-- The first of the requirements that is not met. -/
def firstOpen? (u : UserInfo) (now : Int) :
    List LevelRequirement → Option (Option LevelRequirement)
  | [] => some none
  | r :: rest =>
    match r.isMetAt? u now with
    | none => none
    | some false => some (some r)
    | some true => firstOpen? u now rest

/-- The lowest level above the present one that is not met. Nothing at all
when a condition cannot be judged. -/
def next? (rs : List LevelRequirement) (u : UserInfo) (now : Int) :
    Option (Option LevelRequirement) :=
  firstOpen? u now ((sorted rs).filter fun r =>
    match u.levelId with
    | some level => level.toInt < (r.id.toNat : Int)
    | none => true)

end SiteScrape.LevelRequirement
