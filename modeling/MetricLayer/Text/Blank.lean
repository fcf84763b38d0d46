namespace MetricLayer.Text

/-- The 25 characters with the Unicode property White_Space. -/
def isBlank (c : Char) : Bool :=
  let code := c.toNat
  (9 ≤ code && code ≤ 13) || code = 32 || code = 0x85 || code = 0xA0 || code = 0x1680 ||
    (0x2000 ≤ code && code ≤ 0x200A) || code = 0x2028 || code = 0x2029 || code = 0x202F ||
    code = 0x205F || code = 0x3000

def dropBlank (text : List Char) : List Char := text.dropWhile isBlank

def dropEndWhile (drop : Char → Bool) (text : List Char) : List Char :=
  (text.reverse.dropWhile drop).reverse

def trimChars (text : List Char) : List Char := dropEndWhile isBlank (dropBlank text)

def trim (text : String) : String := String.ofList (trimChars text.toList)

/-- A tag is compared without the blanks around it and with its ASCII capitals in lower case. -/
def tag (text : String) : String := String.ofList ((trimChars text.toList).map Char.toLower)

/-- Cuts a text at the first place where the separator stands. -/
def cutAt (separator : List Char) : List Char → Option (List Char × List Char)
  | [] => if separator = [] then some ([], []) else none
  | c :: rest =>
      if separator.isPrefixOf (c :: rest) then some ([], (c :: rest).drop separator.length)
      else (cutAt separator rest).map (fun cut => (c :: cut.1, cut.2))

end MetricLayer.Text
