namespace PhpSyntax.Text

def hexDigits (n : Nat) : List Char :=
  Nat.toDigits 16 n

def unicodeEscape (c : Char) : List Char :=
  '\\' :: 'u' :: '\x7b' :: (hexDigits c.toNat ++ ['\x7d'])

/-- How `c` is written between quotes, where `isShown` tells which characters need no escape. -/
def quotedChar (isShown : Char → Bool) (c : Char) : List Char :=
  match c with
  | '\x00' => ['\\', '0']
  | '\t' => ['\\', 't']
  | '\r' => ['\\', 'r']
  | '\n' => ['\\', 'n']
  | '\x22' => ['\\', '\x22']
  | '\\' => ['\\', '\\']
  | _ => if isShown c then [c] else unicodeEscape c

def quoted (isShown : Char → Bool) (text : String) : String :=
  String.ofList ('\x22' :: (text.toList.flatMap (quotedChar isShown) ++ ['\x22']))

end PhpSyntax.Text
