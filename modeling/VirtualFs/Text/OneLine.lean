namespace VirtualFs.Text

/-- Whether a character is a control. Controls have no place within a line. -/
def isControl (c : Char) : Bool :=
  c.toNat < 0x20 || (0x7f ≤ c.toNat && c.toNat ≤ 0x9f)

/-- Replace every occurrence of a character by a text. -/
def replaceChar (old : Char) (new : List Char) (text : List Char) : List Char :=
  text.flatMap (fun c => if c = old then new else [c])

/-- Make a text safe to stand within a line: line breaks and tabs are spelled out, any other control
    is dropped. -/
def oneLine (text : String) : String :=
  String.ofList
    ((replaceChar '\t' ['\\', 't']
      (replaceChar '\r' ['\\', 'r']
        (replaceChar '\n' ['\\', 'n'] text.toList))).filter (!isControl ·))

end VirtualFs.Text
