/-!
# Incidents and notices

An incident is a problem that a layout met and worked around.  Most incidents are
worth a notice to the user; a notice log takes each notice once.  Two notices are
the same to the log when they read the same.
-/

namespace Lettering

/-- A problem that was worked around. -/
inductive Incident where
  /-- No font has a character; the placeholder is drawn. -/
  | missingGlyph (font : String) (c : Char)
  /-- A font is not available; another one is used if there is one. -/
  | missingFont (requested : String) (used : Option String)
  /-- A stroke font can only imitate bold or italic. -/
  | imitatedStyle
deriving DecidableEq

/-- A message of a component of the engine. -/
structure Notice where
  component : String
  message : String
deriving DecidableEq

/-- How a notice reads. -/
def Notice.text (n : Notice) : String := "[" ++ n.component ++ "] " ++ n.message

/-- The code point of a character in at least four upper-case hexadecimal digits. -/
def codePoint (c : Char) : String :=
  let digits := (Nat.toDigits 16 c.toNat).map Char.toUpper
  "U+" ++ String.ofList (List.replicate (4 - digits.length) '0' ++ digits)

/-- The notice of an incident. -/
def Incident.notice? : Incident → Option Notice
  | .missingGlyph _ c =>
    some ⟨"Glyph", "no font provides " ++ codePoint c ++ ", drawing placeholder"⟩
  | .missingFont requested (some used) =>
    some ⟨"Font", "font '" ++ requested ++ "' not available, using '" ++ used ++ "'"⟩
  | .missingFont requested none =>
    some ⟨"Font", "font '" ++ requested ++ "' and the default font are not available"⟩
  | .imitatedStyle => none

/-- The notices given so far, by how they read. -/
structure NoticeLog where
  texts : List String := []

namespace NoticeLog

/-- Whether a notice that reads the same was given. -/
def given (log : NoticeLog) (n : Notice) : Bool := log.texts.contains n.text

/-- Gives a notice, unless it was given before: the log after that, and the line that goes out. -/
def announce (log : NoticeLog) (n : Notice) : NoticeLog × Option String :=
  if log.given n then (log, none) else (⟨n.text :: log.texts⟩, some n.text)

/-- The log after a notice. -/
def give (log : NoticeLog) (n : Notice) : NoticeLog := (log.announce n).1

/-- Gives the notices of a list of incidents. -/
def giveAll (log : NoticeLog) (incidents : List Incident) : NoticeLog :=
  (incidents.filterMap Incident.notice?).foldl give log

end NoticeLog

end Lettering
