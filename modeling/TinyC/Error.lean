import TinyC.Diagnostic

namespace TinyC

inductive PlainError where
  | package
  | badParameter
  | fileNotFound
  | permission
  | notADirectory
  | isADirectory
  | os
  | unicodeEncode
  | value
  | noAttribute
  | key
  | recursion
  | runtime
deriving DecidableEq

namespace PlainError

def all : List PlainError :=
  [package, badParameter, fileNotFound, permission, notADirectory, isADirectory, os, unicodeEncode,
    value, noAttribute, key, recursion, runtime]

def name : PlainError → String
  | package => "MiniCError"
  | badParameter => "BadParameter"
  | fileNotFound => "FileNotFoundError"
  | permission => "PermissionError"
  | notADirectory => "NotADirectoryError"
  | isADirectory => "IsADirectoryError"
  | os => "OSError"
  | unicodeEncode => "UnicodeEncodeError"
  | value => "ValueError"
  | noAttribute => "AttributeError"
  | key => "KeyError"
  | recursion => "RecursionError"
  | runtime => "RuntimeError"

end PlainError

inductive ErrorClass where
  | compilation (stage : Stage)
  | unicodeDecode
  | plain (e : PlainError)
deriving DecidableEq

namespace ErrorClass

def all : List ErrorClass :=
  Stage.all.map compilation ++ unicodeDecode :: PlainError.all.map plain

def name : ErrorClass → String
  | compilation stage => stage.errorName
  | unicodeDecode => "UnicodeDecodeError"
  | plain e => e.name

end ErrorClass

end TinyC
