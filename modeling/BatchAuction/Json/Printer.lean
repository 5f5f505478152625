import BatchAuction.Json.Value
import BatchAuction.Text.Quoted

/-!
# Compact JSON text

A value is written without blanks. In texts only the quote, the backslash and
control characters are escaped.
-/

set_option autoImplicit false

namespace BatchAuction.Json

def printChar (c : Char) : List Char :=
  if c = '"' then ['\\', '"']
  else if c = '\\' then ['\\', '\\']
  else if c = '\x08' then ['\\', 'b']
  else if c = '\x0c' then ['\\', 'f']
  else if c = '\n' then ['\\', 'n']
  else if c = '\r' then ['\\', 'r']
  else if c = '\t' then ['\\', 't']
  else if c.toNat < 32 then
    ['\\', 'u', '0', '0', Text.hexDigit (c.toNat / 16), Text.hexDigit (c.toNat % 16)]
  else [c]

def printText (text : String) : List Char :=
  '"' :: text.toList.flatMap printChar ++ ['"']

mutual

def chars : Json → List Char
  | .null => ['n', 'u', 'l', 'l']
  | .boolean true => ['t', 'r', 'u', 'e']
  | .boolean false => ['f', 'a', 'l', 's', 'e']
  | .number value => value.print.toList
  | .text value => printText value
  | .list items => '[' :: itemChars items ++ [']']
  | .object members => '\x7b' :: memberChars members ++ ['\x7d']

def itemChars : List Json → List Char
  | [] => []
  | [item] => chars item
  | item :: rest => chars item ++ ',' :: itemChars rest

def memberChars : List (String × Json) → List Char
  | [] => []
  | [(key, value)] => printText key ++ ':' :: chars value
  | (key, value) :: rest => printText key ++ ':' :: chars value ++ ',' :: memberChars rest

end

def print (value : Json) : String := String.ofList (chars value)

end BatchAuction.Json
