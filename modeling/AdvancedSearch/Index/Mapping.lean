import AdvancedSearch.Index.Fingerprint

/-!
# The product index

Settings and mappings of the product index, as data. Shard and replica counts are absent: a
serverless cluster rejects them.
-/

namespace AdvancedSearch

open Js

/-- An analyzer over the standard tokenizer. -/
def customAnalyzer (filter : List String) : Json :=
  .object [("type", .string "custom"), ("tokenizer", .string "standard"),
    ("filter", .array (filter.map .string))]

def indexSettings : Fields :=
  [("analysis", .object
    [("analyzer", .object
      [("text_std", customAnalyzer ["lowercase", "asciifolding"]),
        ("text_en", customAnalyzer ["lowercase", "asciifolding", "english_stop", "english_stemmer"]),
        ("shingle_analyzer", customAnalyzer ["lowercase", "asciifolding", "shingle_2_3"])]),
      ("filter", .object
        [("english_stop", .object [("type", .string "stop"), ("stopwords", .string "_english_")]),
          ("english_stemmer", .object
            [("type", .string "stemmer"), ("language", .string "light_english")]),
          ("shingle_2_3", .object
            [("type", .string "shingle"), ("min_shingle_size", .number (.ofNat 2)),
              ("max_shingle_size", .number (.ofNat 3))])])])]

def keywordField : Json := .object [("type", .string "keyword")]

def textField (analyzer : String) : Json :=
  .object [("type", .string "text"), ("analyzer", .string analyzer)]

/-- A keyword whose text is also matched, and suggested from. -/
def taxonomyField : Json :=
  .object
    [("type", .string "keyword"), ("copy_to", .array [.string "suggest_text"]),
      ("fields", .object [("text", textField "text_en")])]

def indexMappings : Mappings where
  metadata := none
  fields :=
    [("properties", .object
      [("id", keywordField),
        ("name", .object
          [("type", .string "text"), ("analyzer", .string "text_en"),
            ("copy_to", .array [.string "suggest_text"]),
            ("fields", .object
              [("std", textField "text_std"), ("kw", keywordField),
                ("suggest", .object
                  [("type", .string "search_as_you_type"), ("analyzer", .string "text_std")])])]),
        ("description", textField "text_en"),
        ("category", taxonomyField),
        ("subcategories", taxonomyField),
        ("location", .object
          [("type", .string "keyword"), ("fields", .object [("text", textField "text_std")])]),
        ("price", .object
          [("type", .string "scaled_float"), ("scaling_factor", .number (.ofNat 100))]),
        ("popularity", .object [("type", .string "integer")]),
        ("createdAt", .object [("type", .string "date")]),
        ("suggest_text", .object
          [("type", .string "text"), ("analyzer", .string "text_std"),
            ("fields", .object [("trigram", textField "shingle_analyzer")])])])]

def productIndexDefinition : IndexDefinition where
  settings := indexSettings
  mappings := indexMappings

end AdvancedSearch
