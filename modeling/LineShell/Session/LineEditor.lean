import LineShell.FileSystem.Access
import LineShell.Text.Blank

/-
  This module describes what asks for lines. A line editor
  shows a prompt, turns what is typed into replies, and has
  a history that it can load and save; how it does so is a
  matter of its own. The plain editor is the one for input
  that does not come from a keyboard.

  Key definitions include:
    * `Reply`
    * `LineEditor`
    * `LineEditor.withoutEnding`
    * `LineEditor.History`
    * `LineEditor.plain`
-/

namespace LineShell

------------------------------------------------------------
-- Line editors
------------------------------------------------------------

/-
  What becomes of the question for a line: there is a line,
  the user wants to be asked again, or the editor fails with
  a message.
-/
inductive Reply where
  | line (text : String)
  | interrupted
  | failed (message : String)
deriving DecidableEq, Repr

/-
  What a session needs of a line editor: the message if it
  cannot be started, what it shows of a prompt, and the
  replies to one question after the other until nothing is
  left of what is typed. A history is loaded from a file if
  that is possible, gets more lines, and is saved if that is
  possible.
-/
structure LineEditor where
  Memory : Type
  obstacle : Option String
  prompted : String → String
  replies : List UInt8 → List Reply
  fresh : Memory
  load : FileSystem → String → Memory → Memory
  add : String → Memory → Memory
  save : FileSystem → String → Memory → FileSystem

namespace LineEditor

/- A history with more lines, apart from blank ones. -/
def keep
    (editor : LineEditor)
    (lines : List String)
    (memory : editor.Memory) : editor.Memory :=
  (lines.filter fun line => Text.trim line ≠ "").foldl
    (fun kept line => editor.add line kept) memory

------------------------------------------------------------
-- Lines that are not typed
------------------------------------------------------------

/-
  A line without the newline that ends it, and without the
  carriage return before that.
-/
def withoutEnding
    (text : String) : String :=
  match text.toList.reverse with
  | '\n' :: '\r' :: front => String.ofList front.reverse
  | '\n' :: front => String.ofList front.reverse
  | _ => text

/- The words for a line that is no text. -/
def unreadableMessage : String :=
  "stream did not contain valid UTF-8"

/- The reply that the bytes of a line are. -/
def replyOf
    (bytes : List UInt8) : Reply :=
  match Utf8.decode? (ByteArray.mk bytes.toArray) with
  | none => .failed unreadableMessage
  | some text => .line (withoutEnding text)

------------------------------------------------------------
-- Histories
------------------------------------------------------------

/-
  The lines that are kept, the oldest one first, and whether
  there are some that were not loaded from a file.
-/
structure History where
  lines : List String
  grown : Bool
deriving DecidableEq, Repr

namespace History

/- The greatest number of lines in a history. -/
def maxLines : Nat := 100

/- The first line of a file in which lines are escaped. -/
def mark : String :=
  "#V2"

/-
  A history with one more line, unless that is empty or the
  same as the last one. The oldest one gives way if there
  are too many.
-/
def add
    (line : String)
    (history : History) : History :=
  if line = "" ∨ history.lines.getLast? = some line then
    history
  else
    ⟨history.lines.drop
        (history.lines.length + 1 - maxLines) ++ [line],
      true⟩

/- A line as it is written to a file. -/
def escaped
    (line : String) : String :=
  String.join (line.toList.map fun c =>
    if c = '\\' then
      "\\\\"
    else if c = '\n' then
      "\\n"
    else
      String.singleton c)

/- The characters of an escaped line, if it is one. -/
def unescaped? :
    List Char → Option (List Char)
  | [] => some []
  | '\\' :: 'n' :: rest => (unescaped? rest).map ('\n' :: ·)
  | '\\' :: '\\' :: rest =>
    (unescaped? rest).map ('\\' :: ·)
  | '\\' :: _ => none
  | c :: rest => (unescaped? rest).map (c :: ·)

/- A line as it was before it was written to a file. -/
def unescaped
    (line : String) : String :=
  ((unescaped? line.toList).map String.ofList).getD line

/- Lines as texts, up to the first one that is none. -/
def textLines :
    List (List UInt8) → List String
  | [] => []
  | bytes :: others =>
    match Utf8.decode? (ByteArray.mk bytes.toArray) with
    | none => []
    | some text => withoutEnding text :: textLines others

/- The lines of a history that is written in a file. -/
def linesOf
    (content : ByteArray) : List String :=
  match textLines (Utf8.lines content.data.toList) with
  | [] => []
  | first :: others =>
    if first = mark then
      others.map unescaped
    else
      first :: others

/- A history with the lines of a file, if it can be read. -/
def load
    (files : FileSystem)
    (path : String)
    (history : History) : History :=
  match files.readFile path with
  | .error _ => history
  | .ok content =>
    let kept := (linesOf content).foldl (·.add ·) history
    ⟨kept.lines, false⟩

/- The text of a file for a history. -/
def text
    (history : History) : String :=
  String.join
    ((mark :: history.lines.map escaped).map (· ++ "\n"))

/- The file system with a history that has grown in a file. -/
def save
    (files : FileSystem)
    (path : String)
    (history : History) : FileSystem :=
  if history.grown then
    match
      files.writeFile .truncate path
        history.text.toByteArray with
    | .ok saved => saved
    | .error _ => files
  else
    files

end History

------------------------------------------------------------
-- The plain editor
------------------------------------------------------------

/-
  The editor that takes lines as they come. It shows its
  prompts, and fails at a line that is no text.
-/
def plain : LineEditor where
  Memory := History
  obstacle := none
  prompted prompt := prompt
  replies input := (Utf8.lines input).map replyOf
  fresh := ⟨[], false⟩
  load := History.load
  add := History.add
  save := History.save

end LineEditor

end LineShell
