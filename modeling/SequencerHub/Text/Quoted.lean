import SequencerHub.Text.Printable

/-! Text shown in double quotes for a reader of messages: what cannot be seen is spelled by its number. -/
namespace SequencerHub.Quoted

def spell (c : Char) : List Char :=
  '\\' :: 'u' :: '\x7b' :: Nat.toDigits 16 c.toNat ++ ['\x7d']

def shown (c : Char) : List Char :=
  if c = '"' then ['\\', '"']
  else if c = '\\' then ['\\', '\\']
  else if c = '\n' then ['\\', 'n']
  else if c = '\r' then ['\\', 'r']
  else if c = '\t' then ['\\', 't']
  else if c = '\x00' then ['\\', '0']
  else if Printable.isHidden c || Printable.isExtending c then spell c
  else [c]

def quote (s : String) : String := String.ofList ('"' :: s.toList.flatMap shown ++ ['"'])

def quoteAll (texts : List String) : String := "[" ++ ", ".intercalate (texts.map quote) ++ "]"

end SequencerHub.Quoted
