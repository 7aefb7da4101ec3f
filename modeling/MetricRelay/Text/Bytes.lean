namespace MetricRelay.Text

-- The UTF-8 bytes of a text.
def bytes (s : String) : List UInt8 :=
  s.toUTF8.data.toList

-- The text that bytes spell in UTF-8, if they do.
def ofBytes? (bs : List UInt8) : Option String :=
  String.fromUTF8? ⟨bs.toArray⟩

end MetricRelay.Text
